import CompiledScript.Splice.Error

/-!
# Splicing definition commands

A splice moves a definition command of the host to a reserved name and puts an
interceptor in its place; removing the splice deletes the interceptor and moves
the command back.  The reserved name is also the mark of a splice: while it is
taken no other load can splice the same command.

A set of splices belongs to one load.  It splices a command only for a registry
that holds bodies, and if the second splice cannot be made the first is removed
again.  Removing a set forgets its bodies and tries to remove both splices, even
if one of them fails.
-/

namespace CompiledScript

set_option autoImplicit false

/-- The name that a spliced command is moved to. -/
def reservedName (command : String) : String :=
  "::__tbc_original::" ++ Name.stripGlobal command

/-- Whether a splice is in force. -/
inductive SpliceState where
  | uninstalled
  | installed
deriving DecidableEq, Inhabited, Repr

/-- A definition command and the name it is moved to. -/
structure Splice where
  name : String
  reserved : String
  state : SpliceState
deriving DecidableEq, Inhabited, Repr

namespace Splice

variable {σ : Type}

/-- Moves a command to its reserved name and puts an interceptor in its place.  If the host
does not take the interceptor, the command is moved back. -/
def install (host : Host σ) (name : String) (interceptor : Interceptor) : RunM σ Splice := do
  let reserved := reservedName name
  let world ← get
  if host.hasCommand world.host reserved then
    throw (.splice (.alreadyIntercepted name))
  else if host.hasCommand world.host name then
    (host.rename name reserved).required
    match ← (host.register name interceptor).attempted with
    | .ok () => return ⟨name, reserved, .installed⟩
    | .error error =>
      let _movedBack ← (host.rename reserved name).attempted
      throw (.host error)
  else
    throw (.splice (.nothingToIntercept name))

/-- Deletes the interceptor and moves the command back, and gives the splice as it is then.
Nothing is done if the splice is not in force. -/
def uninstall (host : Host σ) (splice : Splice) : HostM σ Splice :=
  match splice.state with
  | .uninstalled => return splice
  | .installed => do
    host.delete splice.name
    host.rename splice.reserved splice.name
    return { splice with state := .uninstalled }

end Splice

/-- A splice and the number of the registry its interceptor asks. -/
structure Installation where
  splice : Splice
  registry : Nat
deriving DecidableEq, Inhabited, Repr

namespace Installation

variable {σ : Type}

/-- Splices a command for the bodies of a registry, which is added to the world. -/
def make (host : Host σ) (name : String) (form : InterceptorForm)
    (registry : Registry DefinitionKey) :
    RunM σ Installation := do
  let number := (← get).registries.length
  modify fun world => world.addRegistry registry
  let splice ← Splice.install host name ⟨reservedName name, form, number⟩
  return ⟨splice, number⟩

def isInstalled (installation : Installation) : Bool :=
  installation.splice.state == .installed

/-- The number of bodies that were not handed out. -/
def unconsumed (world : World σ) (installation : Installation) : Nat :=
  (world.registry installation.registry).size

/-- Forgets the bodies and tries to remove the splice. -/
def remove (host : Host σ) (installation : Installation) :
    HostM σ (Installation × Except HostError Unit) := do
  modify fun world => world.setRegistry installation.registry .empty
  match ← (installation.splice.uninstall host).attempted with
  | .ok splice => return ({ installation with splice }, .ok ())
  | .error error => return (installation, .error error)

end Installation

/-- The splices of one load. -/
structure SpliceSet where
  procedures : Option Installation
  members : Option Installation
deriving DecidableEq, Inhabited, Repr

namespace SpliceSet

variable {σ : Type}

def empty : SpliceSet := ⟨none, none⟩

def isInstalled (set : SpliceSet) : Bool :=
  set.procedures.any Installation.isInstalled || set.members.any Installation.isInstalled

/-- The numbers of procedure and member bodies that were not handed out. -/
def unconsumed (world : World σ) (set : SpliceSet) : Nat × Nat :=
  (set.procedures.elim 0 (Installation.unconsumed world),
    set.members.elim 0 (Installation.unconsumed world))

/-- Tries to remove a splice that may not be there. -/
def removePart (host : Host σ) :
    Option Installation → HostM σ (Option Installation × Except HostError Unit)
  | none => return (none, .ok ())
  | some installation => do
    let (left, outcome) ← installation.remove host
    return (some left, outcome)

/-- Tries to remove both splices, that of the members first, and gives the set as it is then
with the first failure. -/
def uninstall (host : Host σ) (set : SpliceSet) : HostM σ (SpliceSet × Except HostError Unit) := do
  let (members, first) ← removePart host set.members
  let (procedures, second) ← removePart host set.procedures
  return (⟨procedures, members⟩, first.bind fun () => second)

/-- The splice of a command for a registry, if the registry holds bodies. -/
def makePart (host : Host σ) (name : String) (form : InterceptorForm)
    (registry : Registry DefinitionKey) : RunM σ (Option Installation) := do
  if registry.isEmpty then return none
  else return some (← Installation.make host name form registry)

/-- Splices the definition commands of a dialect for the bodies of a load. -/
def install (host : Host σ) (dialect : Dialect) (procedures members : Registry DefinitionKey) :
    RunM σ SpliceSet := do
  let procedurePart ← makePart host dialect.procedure .procedures procedures
  try
    return ⟨procedurePart, ← makePart host dialect.member (.members dialect) members⟩
  catch error =>
    let _removed ← (uninstall host ⟨procedurePart, none⟩).attempted
    throw error

end SpliceSet

end CompiledScript
