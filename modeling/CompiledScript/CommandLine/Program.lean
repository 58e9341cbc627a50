import CompiledScript.CommandLine.Arguments
import CompiledScript.CommandLine.Settings
import CompiledScript.CommandLine.Summary
import CompiledScript.Container.Codec
import CompiledScript.Text.Terminal
import CompiledScript.Verification

/-!
# The program

The program carries out what its arguments ask for.  It writes results to its
output and complaints to its error output, and ends with a code that tells
whether the arguments made sense and the command succeeded.

Settings are read before anything else, so a bad settings file fails commands
that make no use of it.
-/

namespace CompiledScript.CommandLine

set_option autoImplicit false

structure Outcome where
  code : UInt8
  output : String
  errors : String
deriving DecidableEq, Inhabited, Repr

namespace Outcome

def success (output : String) : Outcome := ⟨0, output, ""⟩

/-- A run that failed, with what was written before. -/
def failed (failure : Failure) (output : String) (errors : String) : Outcome :=
  ⟨1, output, errors ++ failure.report⟩

def usage : String := "Usage: tbc [--config CONFIG] <dump FILE | verify FILES... | info [FILE]>\n"

/-- A run whose arguments made no sense.  The complaint is no text for a terminal, so the
marks in it are taken out, with whatever else a terminal would take as orders. -/
def misuse (error : UsageError) : Outcome :=
  let help := Terminal.bold "--help"
  ⟨2, "", Terminal.plain
    s!"error: {error.message}\n\nFor more information, try '{help}'.\n"⟩

end Outcome

variable {m : Type → Type} [Monad m]

def readContainer (surroundings : Surroundings m) (settings : Settings)
    (running : Option RuntimeVersion) (path : String) : ExceptT Failure m Container := do
  match ← surroundings.read path with
  | .error error => throw (.containerUnreadable path error)
  | .ok content =>
    match Container.ofFile settings.limits running content with
    | .error error => throw (.containerRefused path error)
    | .ok container => return container

/-! ## Verification -/

structure Verdict where
  output : String := ""
  errors : String := ""
  passed : Bool
deriving DecidableEq, Inhabited, Repr

def Verdict.ofContainer (path : String) (container : Container) : Verdict :=
  match container.inconsistencies with
  | [] =>
    { output := s!"{path}: ok ({container.procedures.length} procedures, " ++
        s!"{container.classes.length} classes, {container.methods.length} methods)\n"
      passed := true }
  | found =>
    { output := unlines (found.map fun inconsistency => s!"{path}: warning: {inconsistency.text}")
      passed := false }

def verify (surroundings : Surroundings m) (settings : Settings)
    (running : Option RuntimeVersion) (path : String) : m Verdict := do
  match ← (readContainer surroundings settings running path).run with
  | .error failure => return { errors := failure.message ++ "\n", passed := false }
  | .ok container => return .ofContainer path container

/-- The outcome of a run that came to the given verdicts. -/
def Outcome.ofVerdicts (verdicts : List Verdict) : Outcome :=
  let output := String.join (verdicts.map Verdict.output)
  let errors := String.join (verdicts.map Verdict.errors)
  match verdicts.countP (!·.passed) with
  | 0 => ⟨0, output, errors⟩
  | failed + 1 => .failed (.unverified (failed + 1) verdicts.length) output errors

/-! ## Actions -/

def perform (surroundings : Surroundings m) (settings : Settings) :
    Action → ExceptT Failure m Outcome
  | .dump path running showCode asJson => do
    let container ← readContainer surroundings settings running path
    if asJson then return .success ((Json.ofContainer container).write ++ "\n")
    let options :=
      { settings.listing with showCode := settings.listing.showCode && showCode }
    return .success (container.listing options)
  | .verify paths running =>
    .lift do return .ofVerdicts (← paths.mapM (verify surroundings settings running))
  | .info (some path) asJson => do
    let container ← readContainer surroundings settings none path
    if asJson then return .success ((ContainerSummary.json path container).write ++ "\n")
    return .success (ContainerSummary.text path container)
  | .info none asJson =>
    if asJson then return .success ((FormatSummary.json settings.limits).write ++ "\n")
    else return .success (FormatSummary.text settings.limits)

def run (surroundings : Surroundings m) (arguments : List String) : m Outcome := do
  match Request.ofArguments arguments with
  | .error error => return .misuse error
  | .ok .version => return .success s!"tbc {programVersion}\n"
  | .ok .help => return .success Outcome.usage
  | .ok (.action path action) =>
    let attempt : ExceptT Failure m Outcome := do
      perform surroundings (← Settings.load surroundings path) action
    match ← attempt.run with
    | .ok outcome => return outcome
    | .error failure => return .failed failure "" ""

end CompiledScript.CommandLine
