import CompiledScript.Container.Codec
import CompiledScript.Save
import CompiledScript.Splice.Basic

/-!
# Replaying a container

A replay runs the top block of a container while the definition commands of the
host are spliced, so that the definitions it makes receive the bodies that were
compiled ahead of time.  The splices are removed whatever the run results in.  A
failure of the run is reported in preference to one of the removal.

Loading is decoding a container for the host's own version and replaying it.
Nothing is asked of the host but its version before the whole container is
decoded.
-/

namespace CompiledScript

set_option autoImplicit false

variable {σ : Type}

namespace Container

/-- The bodies of the procedures, each under its name. -/
def procedureBodies (container : Container) : Registry DefinitionKey :=
  .ofList <| container.procedures.map fun entry =>
    (.procedure entry.name, ⟨entry.scope, entry.arguments, entry.body⟩)

/-- The bodies of the class members, which are compiled against the namespace of their
class. -/
def memberBodies (container : Container) : Registry DefinitionKey :=
  .ofList <| container.methods.map fun entry =>
    (.member entry.className entry.kind entry.name,
      ⟨entry.className, entry.arguments, entry.body⟩)

end Container

/-- Runs the top block of a container with its bodies spliced in. -/
def replay (host : Host σ) (dialect : Dialect) (container : Container) : RunM σ String := do
  let splices ←
    SpliceSet.install host dialect container.procedureBodies container.memberBodies
  let outcome ← (host.execute container.top).attempted
  let (_, removed) ← (splices.uninstall host).required
  match outcome, removed with
  | .ok result, .ok () => return result
  | .ok _, .error error => throw (.host error)
  | .error error, _ => throw (.host error)

/-- Decodes a container for the host and replays it. -/
def load (host : Host σ) (options : Options) (bytes : Bytes) : RunM σ String := do
  let running := host.runtimeVersion (← get).host
  match (Container.decode options.limits running).outcome bytes with
  | .error error => throw (.format error)
  | .ok container => replay host options.dialect container

/-- Loads the container in a file, given the content of the file if it could be read. -/
def loadFile (host : Host σ) (options : Options) (path : String)
    (content : Except FileError Bytes) : RunM σ String :=
  match content with
  | .error error => throw (.file path error)
  | .ok bytes => load host options bytes

end CompiledScript
