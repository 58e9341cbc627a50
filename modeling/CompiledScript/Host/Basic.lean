import CompiledScript.Definition.Scan
import CompiledScript.Splice.Interceptor

/-!
# Hosts

The compiler, the execution engine and the command table belong to a host.  A
host is what it can be asked to do, as actions on its own state; everything else
in this library sees a host only through these actions.

The registries that interceptors ask for bodies are shared between a load and
the interceptors it has put into the host's command table.  They are kept beside
the host's state and referred to by number, so a registry lives on wherever the
host moves the interceptor to.
-/

namespace CompiledScript

set_option autoImplicit false

structure HostError where
  message : String
deriving DecidableEq, Inhabited, Repr

/-- A procedure or member body that is to be compiled. -/
structure BodySource where
  /-- The absolute name of a procedure, or the name of a member. -/
  name : String
  scope : String
  arguments : String
  body : String
  kind : DefinitionKind
deriving DecidableEq, Inhabited, Repr

/-- What is compiled for a definition. -/
def Definition.source (definition : Definition) : BodySource where
  name := definition.name
  scope := definition.scope
  arguments := definition.arguments
  body := definition.body
  kind := definition.kind

/-- A host's state and the registries of the loads on it. -/
structure World (σ : Type) where
  host : σ
  registries : List (Registry DefinitionKey)
deriving Inhabited

namespace World

variable {σ : Type}

/-- The registry of a number, which is empty if there is none. -/
def registry (world : World σ) (number : Nat) : Registry DefinitionKey :=
  world.registries[number]?.getD .empty

def setRegistry (world : World σ) (number : Nat) (registry : Registry DefinitionKey) : World σ :=
  { world with registries := world.registries.set number registry }

def addRegistry (world : World σ) (registry : Registry DefinitionKey) : World σ :=
  { world with registries := world.registries ++ [registry] }

end World

/-- An action of a host.  What was done before a failure stays done. -/
abbrev HostM (σ : Type) (α : Type) := EStateM HostError (World σ) α

/-- An action of a host, whose failure is given as a result. -/
def HostM.attempted {ε σ α : Type} (action : HostM σ α) :
    EStateM ε (World σ) (Except HostError α) := fun world =>
  match action world with
  | .ok value after => .ok (.ok value) after
  | .error error after => .ok (.error error) after

/-- What a host with states of type `σ` can be asked to do. -/
structure Host (σ : Type) where
  /-- The version that is written into containers and compared with theirs. -/
  runtimeVersion : σ → RuntimeVersion
  /-- The namespace of the command that is being run. -/
  currentNamespace : σ → String
  /-- Whether there is a command of a name. -/
  hasCommand : σ → String → Bool
  rename : (source target : String) → HostM σ Unit
  /-- Puts an interceptor into the command table. -/
  register : String → Interceptor → HostM σ Unit
  delete : String → HostM σ Unit
  invoke : String → List Argument → HostM σ String
  compileScript : String → HostM σ Block
  compileBody : BodySource → HostM σ Block
  /-- Runs a top block and gives its result. -/
  execute : Block → HostM σ String

/-- Runs an interceptor that is called with the given arguments on a host that has the given
namespace and calls commands with `invoke`: the registry is asked, and the call is passed
on. -/
def Interceptor.run {σ : Type} (currentNamespace : σ → String)
    (invoke : String → List Argument → HostM σ String) (interceptor : Interceptor)
    (arguments : List Argument) : HostM σ String := do
  let world ← get
  let (passed, left) :=
    interceptor.form.passOn (currentNamespace world.host) (world.registry interceptor.registry)
      arguments
  set (world.setRegistry interceptor.registry left)
  invoke interceptor.target passed

end CompiledScript
