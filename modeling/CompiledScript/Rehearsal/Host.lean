import CompiledScript.Replay

/-!
# A host to rehearse on

A rehearsal is a host without an interpreter.  It has a command table, in which
names are matched as they are, and it keeps a record of what it was asked to
compile, to run and to call.  It can be told to refuse renaming, registering,
deleting or calling single commands and to fail at a chosen compilation, so
saves, loads and splices can be tried out in every situation.

Running a block is left open: the rehearsal host of a script of actions does
what the script says, whatever the block.
-/

namespace CompiledScript

set_option autoImplicit false

namespace Rehearsal

/-- The commands for which a host refuses an operation. -/
structure Refusals where
  rename : List String := []
  register : List String := []
  delete : List String := []
  invoke : List String := []
deriving DecidableEq, Inhabited, Repr

/-- Something a host was asked for. -/
inductive Call where
  /-- A call of one of the host's own commands. -/
  | command (name : String) (arguments : List Argument)
  /-- The compilation of a script of the given length in bytes. -/
  | script (length : Nat)
  | body (source : BodySource)
  /-- The running of a block with the given code. -/
  | execute (code : Bytes)
deriving Inhabited

/-- A command of the table: one of the host's own, or an interceptor. -/
inductive Entry where
  | native
  | interceptor (interceptor : Interceptor)
deriving DecidableEq, Inhabited, Repr

end Rehearsal

/-- The state of a rehearsal host, with `ω` for what a script of actions keeps of its own. -/
structure Rehearsal (ω : Type) where
  version : RuntimeVersion := ⟨1, 0⟩
  commands : List (String × Rehearsal.Entry) := []
  currentNamespace : String := Name.global
  refusals : Rehearsal.Refusals := {}
  /-- The failure of compiling scripts, if that fails. -/
  scriptFailure : Option String := none
  /-- Which compilation of a body fails, counted from zero, and its failure. -/
  bodyFailure : Option (Nat × String) := none
  /-- What scripts are compiled to, if not to a block whose code is the script. -/
  top : Option Block := none
  /-- How many bodies were compiled or failed to be. -/
  bodiesCompiled : Nat := 0
  /-- What the host was asked for, in order. -/
  log : List Rehearsal.Call := []
  /-- What the script of actions keeps. -/
  stage : ω

namespace Rehearsal

variable {ω : Type}

abbrev Action (ω α : Type) := HostM (Rehearsal ω) α

def update (change : Rehearsal ω → Rehearsal ω) : Action ω Unit :=
  modify fun world => { world with host := change world.host }

def fail {α : Type} (message : String) : Action ω α := throw ⟨message⟩

def find? (rehearsal : Rehearsal ω) (name : String) : Option Entry :=
  rehearsal.commands.lookup name

def without (name : String) (commands : List (String × Entry)) : List (String × Entry) :=
  commands.filter fun entry => entry.1 != name

def put (name : String) (entry : Entry) (rehearsal : Rehearsal ω) : Rehearsal ω :=
  { rehearsal with commands := (name, entry) :: without name rehearsal.commands }

def record (call : Call) (rehearsal : Rehearsal ω) : Rehearsal ω :=
  { rehearsal with log := rehearsal.log ++ [call] }

/-- Renames a command that is there to a name that is free. -/
def rename (source target : String) : Action ω Unit := do
  let rehearsal := (← get).host
  if source ∈ rehearsal.refusals.rename then fail s!"rename of \"{source}\" refused"
  else if (rehearsal.find? target).isSome then fail s!"command \"{target}\" exists"
  else
    match rehearsal.find? source with
    | none => fail s!"no command \"{source}\""
    | some entry =>
      update fun rehearsal =>
        put target entry { rehearsal with commands := without source rehearsal.commands }

def register (name : String) (interceptor : Interceptor) : Action ω Unit := do
  let rehearsal := (← get).host
  if name ∈ rehearsal.refusals.register then fail s!"register of \"{name}\" refused"
  else update (put name (.interceptor interceptor))

def delete (name : String) : Action ω Unit := do
  let rehearsal := (← get).host
  if name ∈ rehearsal.refusals.delete then fail s!"delete of \"{name}\" refused"
  else if (rehearsal.find? name).isNone then fail s!"no command \"{name}\""
  else update fun rehearsal =>
    { rehearsal with commands := without name rehearsal.commands }

/-- Calls a command: an interceptor is run, and a command of the host records its arguments and
gives their texts.  At most `hops` interceptors pass a call on one after the other. -/
def invokeWithin : (hops : Nat) → (name : String) → List Argument → Action ω String
  | hops, name, arguments => do
    let rehearsal := (← get).host
    match rehearsal.find? name, hops with
    | none, _ => fail s!"invalid command name \"{name}\""
    | some (.interceptor _), 0 => fail "too many nested evaluations"
    | some (.interceptor interceptor), hops + 1 =>
      interceptor.run Rehearsal.currentNamespace (invokeWithin hops) arguments
    | some .native, _ =>
      if name ∈ rehearsal.refusals.invoke then fail s!"invoke of \"{name}\" refused"
      else
        update (record (.command name arguments))
        return "|".intercalate (arguments.map Argument.shown)

/-- Calls a command.  Interceptors that pass a call on to one another without end are stopped when
one of them is reached again. -/
def invoke (name : String) (arguments : List Argument) : Action ω String := do
  invokeWithin (← get).host.commands.length name arguments

def blockOfText (text : String) : Block := { Block.empty with code := Bytes.ofText text }

/-- Compiles a script to the block that was chosen, or to one whose code is the script. -/
def compileScript (source : String) : Action ω Block := do
  update (record (.script source.utf8ByteSize))
  let rehearsal := (← get).host
  match rehearsal.scriptFailure with
  | some message => fail message
  | none => return rehearsal.top.getD (blockOfText source)

/-- Compiles a body to a block whose code is the body and whose number of locals tells how
many bodies were compiled. -/
def compileBody (source : BodySource) : Action ω Block := do
  let index := (← get).host.bodiesCompiled
  update fun rehearsal =>
    record (.body source) { rehearsal with bodiesCompiled := index + 1 }
  match (← get).host.bodyFailure with
  | some (failing, message) =>
    if failing = index then fail message
  | none => pure ()
  return { blockOfText source.body with compiledLocals := some (UInt32.ofNat (index + 1)) }

/-- The rehearsal host on which running a block does what `perform` does. -/
def host (perform : Action ω String) : Host (Rehearsal ω) where
  runtimeVersion := version
  currentNamespace := currentNamespace
  hasCommand rehearsal name := (rehearsal.find? name).isSome
  rename := rename
  register := register
  delete := delete
  invoke := invoke
  compileScript := compileScript
  compileBody := compileBody
  execute block := do
    update (record (.execute block.code))
    perform

end Rehearsal

end CompiledScript
