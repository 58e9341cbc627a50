import CompiledScript.FormatError
import CompiledScript.Storage.FileTree
import CompiledScript.Toml.Fault

/-!
# Why a command fails

A command fails because its settings or a container cannot be read, or because
containers did not pass verification.  Where a failure has a cause of its own
that is not part of its wording, the cause is shown behind it.
-/

namespace CompiledScript.CommandLine

set_option autoImplicit false

inductive Failure where
  /-- There is no settings file at the path that was given. -/
  | settingsMissing (path : String)
  | settingsUnreadable (error : FileError)
  /-- The settings file is not well-formed UTF-8. -/
  | settingsNotText
  /-- The settings file is not TOML, or a setting has an unfitting value. -/
  | settingsRefused (path : String) (fault : Toml.Fault)
  | containerUnreadable (path : String) (error : FileError)
  | containerRefused (path : String) (error : FormatError)
  | unverified (failed total : Nat)
deriving DecidableEq, Inhabited, Repr

namespace Failure

def message : Failure → String
  | settingsMissing path => s!"Config file not found: {path}"
  | settingsUnreadable error => error.message
  | settingsNotText => "stream did not contain valid UTF-8"
  | settingsRefused path fault => s!"Failed to parse {path}: {fault.message}"
  | containerUnreadable path _ => s!"Failed to read {path}"
  | containerRefused path error => s!"{path}: {error.message}"
  | unverified failed total => s!"{failed} of {total} containers failed verification"

def cause? : Failure → Option String
  | containerUnreadable _ error => some error.message
  | settingsMissing _ | settingsUnreadable _ | settingsNotText | settingsRefused _ _ |
      containerRefused _ _ | unverified _ _ => none

/-- A failure with its cause, as it ends a command. -/
def report (failure : Failure) : String :=
  let cause := failure.cause?.elim "" fun cause => s!"\n\nCaused by:\n    {cause}"
  s!"Error: {failure.message}{cause}\n"

end Failure

end CompiledScript.CommandLine
