import CompiledScript.Auxiliary.Basic
import CompiledScript.Bytes
import CompiledScript.ExceptionRange
import CompiledScript.FormatError

/-!
# Literals and blocks

A block is a piece of compiled program: its code bytes, the pool of literals the
code refers to, its auxiliary records and its exception ranges.  A literal is a
constant of such a pool.  Literals may hold blocks again, as the body of a
lambda or as a block bound to a namespace, so the two are defined together.

A double is kept as its bit pattern, so that signed zeros and the payloads of
NaNs are part of the value.  A map is the list of its entries in the order in
which their keys were first put in; no two of its keys are equal when the map is
built by putting entries in one after the other.
-/

namespace CompiledScript

set_option autoImplicit false

/-- A slot of a compiler's table of local variables. -/
structure LocalVariable where
  /-- The name of the variable, which is empty for a temporary. -/
  name : String
  /-- Whether the slot is a formal parameter. -/
  isArgument : Bool
deriving DecidableEq, Inhabited, Repr

mutual

/-- A constant that the instructions of a block refer to. -/
inductive Literal where
  | int (value : Int64)
  | bigInt (value : Int)
  | boolean (value : Bool)
  | bytes (value : Bytes)
  | map (entries : List MapEntry)
  | double (bits : UInt64)
  | list (items : List Literal)
  | text (value : String)
  | closure (scope : String) (parameters : List Parameter) (body : Block)
  | block (scope : String) (body : Block)

/-- A key of a map with its value. -/
structure MapEntry where
  key : Literal
  value : Literal

/-- A parameter of a lambda, optional if it has a value to fall back to. -/
structure Parameter where
  name : String
  fallback : Option Literal

/-- A piece of compiled program. -/
structure Block where
  code : Bytes
  literals : List Literal
  auxiliaries : List Auxiliary
  exceptions : List ExceptionRange
  /-- The deepest operand stack that the code reaches. -/
  maxStack : UInt32
  /-- The number of local slots, if the compiler recorded it. -/
  compiledLocals : Option UInt32
  /-- The table of local variables, if the compiler kept it. -/
  localTable : Option (List LocalVariable)

end

instance : Inhabited Literal := ⟨.boolean false⟩

/-- The block without code, literals, records, ranges or locals. -/
def Block.empty : Block := ⟨[], [], [], [], 0, none, none⟩

instance : Inhabited Block := ⟨Block.empty⟩

/-! ## Local slots -/

namespace Block

/-- One past the highest slot that an auxiliary record refers to. -/
def referencedLocals (block : Block) : UInt32 :=
  match (block.auxiliaries.filterMap Auxiliary.highestLocal?).max? with
  | none => 0
  | some highest => Auxiliary.saturatingAdd highest 1

/-- The number of local slots, refused if the table of locals outgrows a word.
The compiler's own count comes first, then the table, then what the auxiliary
records refer to. -/
def checkedLocalCount (block : Block) : Except FormatError UInt32 :=
  match block.compiledLocals, block.localTable with
  | some count, _ => .ok count
  | none, some table =>
    if table.length ≤ 4294967295 then .ok (UInt32.ofNat table.length)
    else .error (.limitExceeded "local table" table.length 4294967295)
  | none, none => .ok block.referencedLocals

/-- The number of local slots a block needs. -/
def localCount (block : Block) : UInt32 :=
  match block.checkedLocalCount with
  | .ok count => count
  | .error _ => 4294967295

end Block

/-! ## Tags -/

namespace Literal

/-- The kinds of literals on the wire. -/
inductive Tag where
  | bignum
  | boolean
  | bytes
  | map
  | double
  | list
  | text
  | int64
  | uint64
  | closure
  | block
deriving DecidableEq, Inhabited, Repr

/-- Every tag, in the order of the codes. -/
def Tag.all : List Tag :=
  [bignum, boolean, bytes, map, double, list, text, int64, uint64, closure, block]

def Tag.code : Tag → UInt32
  | bignum => 1
  | boolean => 2
  | bytes => 3
  | map => 4
  | double => 5
  | list => 6
  | text => 7
  | int64 => 8
  | uint64 => 9
  | closure => 10
  | block => 11

def Tag.name : Tag → String
  | bignum => "bignum"
  | boolean => "boolean"
  | bytes => "bytes"
  | map => "map"
  | double => "double"
  | list => "list"
  | text => "text"
  | int64 => "int64"
  | uint64 => "uint64"
  | closure => "closure"
  | block => "block"

def Tag.ofCode? (code : UInt32) : Option Tag := all.find? (·.code == code)

/-- Whether an integer needs the tag of unsigned words: it exceeds the signed
64-bit integers and is still an unsigned one. -/
def needsUnsigned (value : Int) : Bool :=
  9223372036854775808 ≤ value && value < 18446744073709551616

def tag : Literal → Tag
  | int _ => .int64
  | bigInt value => if needsUnsigned value then .uint64 else .bignum
  | boolean _ => .boolean
  | bytes _ => .bytes
  | map _ => .map
  | double _ => .double
  | list _ => .list
  | text _ => .text
  | closure _ _ _ => .closure
  | block _ _ => .block

end Literal

end CompiledScript
