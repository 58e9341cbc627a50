import CompiledScript.Container.Codec
import CompiledScript.Splice.Error

/-!
# Saving a script

Saving finds the definitions of a script, has the host compile the script and
every definition, and writes the container piece by piece as the compiled blocks
come in.  Nothing is kept back: when the host fails or the sink gives out, the
sink holds what was written before, and that is never a whole container.
-/

namespace CompiledScript

set_option autoImplicit false

/-- What a save or a load is to be done with. -/
structure Options where
  limits : Limits := {}
  dialect : Dialect := {}
deriving Inhabited

/-- A sink in use. -/
structure Sink where
  room : Room
  bytes : Bytes
deriving DecidableEq, Inhabited, Repr

def Sink.ofRoom (room : Room) : Sink := ⟨room, []⟩

/-- The sink of a save, and the world of the host it runs on. -/
structure Saving (σ : Type) where
  world : World σ
  sink : Sink

abbrev SaveM (σ : Type) (α : Type) := EStateM RuntimeError (Saving σ) α

namespace SaveM

variable {σ : Type}

def write (encoder : Encoder) : SaveM σ Unit := fun saving =>
  let written := encoder.into saving.sink.room
  let sink : Sink :=
    ⟨saving.sink.room.after written.bytes.length, saving.sink.bytes ++ written.bytes⟩
  match written.failure with
  | none => .ok () { saving with sink }
  | some error => .error (.format error) { saving with sink }

def ask {α : Type} (action : HostM σ α) : SaveM σ α := fun saving =>
  match action saving.world with
  | .ok value world => .ok value { saving with world }
  | .error error world => .error (.host error) { saving with world }

end SaveM

namespace Save

variable {σ : Type}

open SaveM

/-- Writes a counted table whose entries are made one by one. -/
def table {α : Type} (what : String) (max : Nat) (items : List α) (entry : α → SaveM σ Encoder) :
    SaveM σ Unit := do
  write (Encoder.count what items.length max)
  items.forM fun item => do write (← entry item)

/-- The header and the top block. -/
def opening (limits : Limits) (top : Block) (runtime : RuntimeVersion) : Encoder :=
  match Header.forBlock top runtime with
  | .ok header => header.encode ++ top.encode limits
  | .error error => Encoder.fail error

/-- The entry of a procedure, which is compiled for it. -/
def procedureEntry (host : Host σ) (limits : Limits) (definition : Definition) :
    SaveM σ Encoder := do
  let body ← ask (host.compileBody definition.source)
  let entry : ProcedureEntry :=
    { name := definition.name, scope := definition.scope, arguments := definition.arguments, body }
  return entry.encode limits

/-- The entry of a class member, which is compiled for it. -/
def methodEntry (host : Host σ) (limits : Limits) (member : MethodKind × String × Definition) :
    SaveM σ Encoder := do
  let (kind, className, definition) := member
  let body ← ask (host.compileBody definition.source)
  let entry : MethodEntry :=
    { className, kind, name := definition.name, arguments := definition.arguments, body }
  return entry.encode limits

end Save

/-- The members of a scan, each with its kind and its class. -/
def ScanResult.membersWithClass (result : ScanResult) :
    List (MethodKind × String × Definition) :=
  result.definitions.filterMap fun definition =>
    match definition.kind with
    | .procedure => none
    | .member kind className => some (kind, className, definition)

/-- Compiles a script and writes its container into the sink. -/
def saveInto {σ : Type} (host : Host σ) (options : Options) (source : String) :
    SaveM σ Unit := do
  let limits := options.limits
  let scanned := scan source options.dialect
  let top ← SaveM.ask (host.compileScript source)
  let runtime := host.runtimeVersion (← get).world.host
  SaveM.write (Save.opening limits top runtime)
  Save.table "procedures" limits.maxElements scanned.procedures (Save.procedureEntry host limits)
  Save.table "classes" limits.maxElements scanned.classes fun name =>
    return ClassEntry.encode limits ⟨name⟩
  Save.table "methods" limits.maxElements scanned.membersWithClass (Save.methodEntry host limits)

structure SaveOutcome (σ : Type) where
  world : World σ
  bytes : Bytes
  failure : Option RuntimeError

/-- Compiles a script and writes its container into a sink that has the given room. -/
def save {σ : Type} (host : Host σ) (options : Options) (room : Room) (source : String)
    (world : World σ) : SaveOutcome σ :=
  match saveInto host options source ⟨world, .ofRoom room⟩ with
  | .ok () after => ⟨after.world, after.sink.bytes, none⟩
  | .error error after => ⟨after.world, after.sink.bytes, some error⟩

/-- Compiles a script and writes its container into a file, given whether the file at the
path could be made. -/
def saveFile {σ : Type} (host : Host σ) (options : Options) (path : String)
    (made : Except FileError Place) (source : String) (world : World σ) : SaveOutcome σ :=
  match made with
  | .error error => ⟨world, [], some (.file path error)⟩
  | .ok _ => save host options none source world

end CompiledScript
