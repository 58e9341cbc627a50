import CompiledScript.FormatError
import CompiledScript.Host.Basic
import CompiledScript.Storage.FileTree

/-!
# Why a save or a load failed

The container may be refused, the host may report a failure of its own, the
definition commands may be in no state to be spliced, or a file may be out of
reach.  Failures of the host keep their wording.
-/

namespace CompiledScript

set_option autoImplicit false

/-- Why a definition command cannot be spliced. -/
inductive SpliceError where
  /-- The name that the command would be moved to is taken. -/
  | alreadyIntercepted (name : String)
  | nothingToIntercept (name : String)
deriving DecidableEq, Inhabited, Repr

def SpliceError.message : SpliceError → String
  | alreadyIntercepted name => s!"\"{name}\" is already intercepted by another load"
  | nothingToIntercept name => s!"no \"{name}\" command to intercept"

/-- Why a save or a load failed. -/
inductive RuntimeError where
  /-- The container was refused, or the stream gave out. -/
  | format (error : FormatError)
  | host (error : HostError)
  /-- The definition commands could not be spliced. -/
  | splice (error : SpliceError)
  /-- The file at the path could not be opened or made. -/
  | file (path : String) (error : FileError)
deriving DecidableEq, Inhabited, Repr

namespace RuntimeError

def message : RuntimeError → String
  | format error => error.message
  | host error => error.message
  | splice error => "splice error: " ++ error.message
  | file path error => s!"{path}: {error.message}"

/-- Whether the container itself was refused before anything ran. -/
def isContainerError : RuntimeError → Bool
  | format _ => true
  | host _ | splice _ | file _ _ => false

end RuntimeError

/-- An action on a host that may also fail for reasons of its own. -/
abbrev RunM (σ : Type) (α : Type) := EStateM RuntimeError (World σ) α

namespace HostM

variable {σ α : Type}

/-- An action of a host as a step of a save or a load, which its failure ends. -/
def required (action : HostM σ α) : RunM σ α :=
  EStateM.adaptExcept RuntimeError.host action

end HostM

end CompiledScript
