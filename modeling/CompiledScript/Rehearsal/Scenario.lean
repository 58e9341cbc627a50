import CompiledScript.Rehearsal.Host

/-!
# Scenarios

A scenario is a list of steps that are carried out on a rehearsal host: splices
are made and removed in any order, commands are called, and the host is told what
to refuse.  Every step is reported with its outcome, with what the host was asked
for meanwhile and with the commands it has afterwards.

A scenario can also stand for the running of a block.  Its steps are then carried
out while the splices of a load are in force, and they decide what the run
results in.
-/

namespace CompiledScript.Rehearsal

set_option autoImplicit false

/-- A step of a scenario. -/
inductive Step where
  /-- Makes the splices of a load, which later steps refer to by an identifier. -/
  | install (id : String) (dialect : Dialect) (procedures members : Registry DefinitionKey)
  /-- Asks whether splices are in force and how many bodies are left. -/
  | status (id : String)
  | uninstall (id : String)
  /-- Splices one command with an interceptor that passes calls on to `target`. -/
  | splice (id name target : String) (form : InterceptorForm) (bodies : Registry DefinitionKey)
  | unsplice (id : String)
  | invoke (name : String) (arguments : List Argument)
  /-- Makes a namespace the current one. -/
  | enter (scope : String)
  /-- Tells the host what to refuse from now on. -/
  | refuse (refusals : Refusals)
  | delete (name : String)
  | add (name : String)
  /-- Sets the result of the run that the scenario stands for. -/
  | result (value : String)
  /-- Ends the run that the scenario stands for with a failure. -/
  | failure (message : String)
deriving Inhabited

inductive Answer where
  | done
  | text (value : String)
  /-- Whether splices are in force, and the numbers of procedure and member bodies left. -/
  | status (installed : Bool) (procedures members : Nat)
  | spliced (state : SpliceState)
deriving DecidableEq, Inhabited, Repr

inductive Outcome where
  | answered (answer : Answer)
  /-- Splices could not be made or removed. -/
  | refused (error : RuntimeError)
  /-- The host failed in what the step asked it for. -/
  | failed (error : HostError)
deriving DecidableEq, Inhabited, Repr

structure Report where
  outcome : Outcome
  /-- The state in which a step leaves the splice that it was to remove. -/
  left : Option SpliceState
  /-- What the host was asked for during the step. -/
  calls : List Call
  /-- The commands after the step, in order, each with whether it is an interceptor. -/
  commands : List (String × Bool)

/-- What a scenario keeps. -/
structure Stage where
  sets : List (String × SpliceSet) := []
  splices : List (String × Splice) := []
  reports : List Report := []

/-- A host on which a scenario is carried out. -/
abbrev Staged := Rehearsal Stage

/-- The commands of a host in the order of their names, each with whether it is an interceptor. -/
def commandList {ω : Type} (rehearsal : Rehearsal ω) : List (String × Bool) :=
  (rehearsal.commands.map fun (name, entry) => (name, entry != .native)).mergeSort
    fun first second => decide (first.1 ≤ second.1)

/-- The host of the steps, on which no block is run. -/
def stepHost : Host Staged := host (return "")

def keep {α : Type} (id : String) (value : α) (values : List (String × α)) : List (String × α) :=
  (id, value) :: values.filter fun entry => entry.1 != id

/-- Changes what the scenario keeps. -/
def onStage (change : Stage → Stage) : Action Stage Unit :=
  update fun rehearsal => { rehearsal with stage := change rehearsal.stage }

def spliceSet (id : String) : Action Stage SpliceSet :=
  return ((← get).host.stage.sets.lookup id).getD .empty

def statusOf (id : String) : Action Stage Answer := do
  let set ← spliceSet id
  let (procedures, members) := set.unconsumed (← get)
  return .status set.isInstalled procedures members

def unsplice (id : String) : Action Stage Unit := do
  match (← get).host.stage.splices.lookup id with
  | none => return ()
  | some splice =>
    let removed ← splice.uninstall stepHost
    onStage fun stage => { stage with splices := keep id removed stage.splices }

def uninstall (id : String) : Action Stage Unit := do
  let (left, outcome) ← (← spliceSet id).uninstall stepHost
  onStage fun stage => { stage with sets := keep id left stage.sets }
  match outcome with
  | .ok () => return ()
  | .error error => throw error

/-- Makes the splices of a load and keeps them under an identifier. -/
def install (id : String) (dialect : Dialect) (procedures members : Registry DefinitionKey) :
    RunM Staged Answer := do
  let set ← SpliceSet.install stepHost dialect procedures members
  (onStage fun stage => { stage with sets := keep id set stage.sets }).required
  (statusOf id).required

/-- Splices one command and keeps the splice under an identifier. -/
def splice (id name target : String) (form : InterceptorForm) (bodies : Registry DefinitionKey) :
    RunM Staged Answer := do
  let number := (← get).registries.length
  modify fun world => world.addRegistry bodies
  let splice ← Splice.install stepHost name ⟨target, form, number⟩
  (onStage fun stage => { stage with splices := keep id splice stage.splices }).required
  return .spliced splice.state

/-- What the making or removing of splices results in. -/
def splicing (action : RunM Staged Answer) : Action Stage Outcome := fun world =>
  match action world with
  | .ok answer after => .ok (.answered answer) after
  | .error error after => .ok (.refused error) after

/-- What asking the host for something results in. -/
def asking (action : Action Stage Answer) : Action Stage Outcome := do
  match ← action.attempted with
  | .ok answer => return .answered answer
  | .error error => return .failed error

/-- The answer of an action that has none of its own. -/
def done (action : Action Stage Unit) : Action Stage Answer := do
  action
  return .done

def carryOut : Step → Action Stage Outcome
  | .install id dialect procedures members => splicing (install id dialect procedures members)
  | .status id => asking (statusOf id)
  | .uninstall id => splicing (done (uninstall id)).required
  | .splice id name target form bodies => splicing (splice id name target form bodies)
  | .unsplice id => splicing (done (unsplice id)).required
  | .invoke name arguments => asking (return .text (← stepHost.invoke name arguments))
  | .enter scope =>
    asking <| done <| update fun rehearsal => { rehearsal with currentNamespace := scope }
  | .refuse refusals => asking <| done <| update fun rehearsal => { rehearsal with refusals }
  | .delete name => asking (done (stepHost.delete name))
  | .add name => asking (done (update (put name .native)))
  | .result _ | .failure _ => return .answered .done

/-- The state of the splice that a step was to remove. -/
def stateLeft (stage : Stage) : Step → Option SpliceState
  | .unsplice id => some ((stage.splices.lookup id).elim .uninstalled Splice.state)
  | _ => none

def perform (step : Step) : Action Stage Unit := do
  let before := (← get).host.log.length
  let outcome ← carryOut step
  let rehearsal := (← get).host
  let report : Report :=
    { outcome, left := stateLeft rehearsal.stage step, calls := rehearsal.log.drop before
      commands := commandList rehearsal }
  onStage fun stage => { stage with reports := stage.reports ++ [report] }

/-- Carries out the steps of a scenario from a result on, and gives the result in the end. -/
def performAll : (result : String) → List Step → Action Stage String
  | result, [] => return result
  | _, .result value :: steps => performAll value steps
  | _, .failure message :: _ => fail message
  | result, step :: steps => do
    perform step
    performAll result steps

/-- The host on which running a block is carrying out a scenario. -/
def scenarioHost (steps : List Step) : Host Staged := host (performAll "" steps)

end CompiledScript.Rehearsal
