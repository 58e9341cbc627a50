import CompiledScript.Container.Header

/-!
# Containers

A container is the compiled form of one script: a header, the block of the
script's top level, and three tables.  The tables hold the procedures and class
members whose bodies were compiled ahead of time, and the classes they belong to.
-/

namespace CompiledScript

set_option autoImplicit false

inductive MethodKind where
  | method
  | classMethod
  | constructor
  | destructor
deriving DecidableEq, Inhabited, Repr

namespace MethodKind

def code : MethodKind → UInt8
  | method => 0
  | classMethod => 1
  | constructor => 2
  | destructor => 3

def ofCode? : UInt8 → Option MethodKind
  | 0 => some method
  | 1 => some classMethod
  | 2 => some constructor
  | 3 => some destructor
  | _ => none

theorem ofCode?_code (kind : MethodKind) : ofCode? kind.code = some kind := by
  cases kind <;> rfl

end MethodKind

/-- A procedure with its compiled body. -/
structure ProcedureEntry where
  name : String
  /-- The namespace the body was compiled against. -/
  scope : String
  /-- The argument specification, as it was written. -/
  arguments : String
  body : Block
deriving Inhabited

/-- A class, known by its fully qualified name. -/
structure ClassEntry where
  name : String
deriving DecidableEq, Inhabited, Repr

structure MethodEntry where
  className : String
  kind : MethodKind
  /-- The name of the member, empty for constructors and destructors. -/
  name : String
  /-- The argument specification, as it was written. -/
  arguments : String
  body : Block
deriving Inhabited

/-- The compiled form of one script. -/
structure Container where
  header : Header
  top : Block
  procedures : List ProcedureEntry
  classes : List ClassEntry
  methods : List MethodEntry
deriving Inhabited

/-- The container of a top block, with empty tables. -/
def Container.ofBlock (top : Block) (runtime : RuntimeVersion) : Except FormatError Container := do
  let header ← Header.forBlock top runtime
  return { header, top, procedures := [], classes := [], methods := [] }

/-! ## Equality -/

instance : BEq ProcedureEntry where
  beq left right :=
    left.name == right.name && left.scope == right.scope &&
      left.arguments == right.arguments && left.body == right.body

instance : BEq MethodEntry where
  beq left right :=
    left.className == right.className && left.kind == right.kind && left.name == right.name &&
      left.arguments == right.arguments && left.body == right.body

instance : BEq Container where
  beq left right :=
    left.header == right.header && left.top == right.top &&
      left.procedures == right.procedures && left.classes == right.classes &&
      left.methods == right.methods

end CompiledScript
