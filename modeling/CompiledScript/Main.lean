import CompiledScript.CommandLine.Program

/-!
# The command

Runs the program on the files of the machine.
-/

namespace CompiledScript.CommandLine

set_option autoImplicit false

/-- The error that a machine reports on a file. -/
def fileError : IO.Error → FileError
  | .noFileOrDirectory .. => .missing
  | .inappropriateType _ 20 _ => .notDirectory
  | .inappropriateType _ 21 _ => .isDirectory
  | error => .other (toString error)

/-- The directory of the user's settings. -/
def userSettings : IO (Option String) := do
  match ← IO.getEnv "XDG_CONFIG_HOME" with
  | some path => if path.startsWith "/" then return some path
  | none => pure ()
  return (← IO.getEnv "HOME").map (· ++ "/.config")

/-- The files of the machine around the program. -/
def machine : IO (Surroundings IO) := do
  let directory ← IO.currentDir
  return {
    contains := fun path => (directory / path).pathExists
    read := fun path => do
      try return .ok (← IO.FS.readBinFile path).data.toList
      catch error => return .error (fileError error)
    directory := some (FileTree.names directory.toString |>.filter (!·.isEmpty))
    userSettings := ← userSettings }

end CompiledScript.CommandLine

def main (arguments : List String) : IO UInt32 := do
  let outcome ← CompiledScript.CommandLine.run (← CompiledScript.CommandLine.machine) arguments
  IO.print outcome.output
  IO.eprint outcome.errors
  return outcome.code.toUInt32
