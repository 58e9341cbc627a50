import CompiledScript.Text.Terminal
import CompiledScript.Version

/-!
# Arguments

The arguments of the program name a command and say what it is to do.  An
argument that starts with a hyphen is a switch, and every other one an operand;
behind a double hyphen all are operands.  The first operand names the command.
The value of a switch stands behind an equals sign or in the next argument,
which must not look like a switch.

Arguments are taken from left to right, and the first that cannot be taken
decides how they are refused.  A value in an argument of its own is taken no
sooner than the next switch or operand, and not at all if that is refused on
sight.  What waits in front of the command is taken last of all.
-/

namespace CompiledScript.CommandLine

set_option autoImplicit false

/-! ## Requests -/

/-- What the program can do. -/
inductive Action where
  | dump (path : String) (running : Option RuntimeVersion) (showCode asJson : Bool)
  | verify (paths : List String) (running : Option RuntimeVersion)
  /-- Shows the header of a container, or the constants of the format. -/
  | info (path : Option String) (asJson : Bool)
deriving DecidableEq, Inhabited, Repr

/-- What the arguments ask for. -/
inductive Request where
  | version
  | help
  | action (settings : Option String) (action : Action)
deriving DecidableEq, Inhabited, Repr

inductive UsageError where
  /-- They are not the arguments of any command. -/
  | malformed
  /-- The version of the running runtime cannot be read. -/
  | invalidRuntime (text : String) (error : RuntimeVersion.TextError)
deriving DecidableEq, Inhabited, Repr

def UsageError.message : UsageError → String
  | malformed => "these arguments do not make a command"
  | invalidRuntime text error =>
    let switch := Terminal.bold "--runtime <RUNTIME>"
    s!"invalid value '{Terminal.colored text}' for '{switch}': {error.message}"

/-! ## Commands and switches -/

inductive CommandName where
  | dump
  | verify
  | info
deriving DecidableEq, Inhabited, Repr

def CommandName.ofText? : String → Option CommandName
  | "dump" => some dump
  | "verify" => some verify
  | "info" => some info
  | _ => none

/-- Whether a command takes one more operand than it has. -/
def CommandName.takesOperand (command : CommandName) (operands : List String) : Bool :=
  match command with
  | verify => true
  | dump | info => operands.isEmpty

inductive Switch where
  | verbose
  | settings
  | help
  | version
  | runtime
  | noCode
  | json
deriving DecidableEq, Inhabited, Repr

namespace Switch

/-- The switches known in front of a command or, if one is named, behind it. -/
def known : Option CommandName → List Switch
  | none => [verbose, settings, help, version]
  | some .dump => [verbose, settings, help, runtime, noCode, json]
  | some .verify => [verbose, settings, help, runtime]
  | some .info => [verbose, settings, help, json]

def name : Switch → String
  | verbose => "verbose"
  | settings => "config"
  | help => "help"
  | version => "version"
  | runtime => "runtime"
  | noCode => "no-code"
  | json => "json"

def letter? : Switch → Option Char
  | verbose => some 'v'
  | help => some 'h'
  | version => some 'V'
  | settings | runtime | noCode | json => none

def takesValue : Switch → Bool
  | settings | runtime => true
  | verbose | help | version | noCode | json => false

end Switch

inductive Form where
  | operand
  /-- Behind it all arguments are operands. -/
  | doubleHyphen
  /-- A switch by name, with what stands behind an equals sign. -/
  | named (name : List Char) (value : Option String)
  | letters (letters : List Char)
deriving DecidableEq, Inhabited, Repr

def Form.ofText (text : String) : Form :=
  match text.toList with
  | ['-', '-'] => .doubleHyphen
  | '-' :: '-' :: chars =>
    let name := chars.takeWhile (· != '=')
    match chars.drop name.length with
    | [] => .named name none
    | _ :: value => .named name (some (String.ofList value))
  | '-' :: first :: others => .letters (first :: others)
  | _ => .operand

/-! ## Taking arguments -/

/-- Why no more arguments are taken. -/
inductive Stop where
  | misuse (error : UsageError)
  /-- A switch asks for something whatever else is asked for. -/
  | request (request : Request)
deriving DecidableEq, Inhabited, Repr

def malformed {α : Type} : Except Stop α := .error (.misuse .malformed)

/-- What the arguments in front of the command, or those behind it, say so far. -/
structure Level where
  switches : List Switch := []
  settings : Option String := none
  running : Option RuntimeVersion := none
  operands : List String := []
  /-- A switch that is not taken yet, and its value once that is given. -/
  pending : Option (Switch × Option String) := none
deriving Inhabited

namespace Level

/-- Takes a switch with its value, which is empty for those without one. -/
def takeSwitch (level : Level) (switch : Switch) (value : String) : Except Stop Level :=
  if switch ∈ level.switches then malformed
  else
    let level := { level with switches := switch :: level.switches }
    match switch with
    | .settings => if value.isEmpty then malformed else .ok { level with settings := some value }
    | .runtime =>
      match RuntimeVersion.ofText value with
      | .ok running => .ok { level with running := some running }
      | .error error => .error (.misuse (.invalidRuntime value error))
    | .version => .error (.request .version)
    | .help => .error (.request .help)
    | .verbose | .noCode | .json => .ok level

/-- Takes the switch that is not taken yet, which must have its value. -/
def settle (level : Level) : Except Stop Level :=
  match level.pending with
  | none => .ok level
  | some (_, none) => malformed
  | some (switch, some value) => { level with pending := none }.takeSwitch switch value

def waiting? (level : Level) : Option Switch :=
  match level.pending with
  | some (switch, none) => some switch
  | some (_, some _) | none => none

def takeNamed (level : Level) (known : List Switch) (name : List Char) (value : Option String) :
    Except Stop Level :=
  match known.find? (·.name.toList == name), value with
  | none, _ => malformed
  | some switch, some value =>
    if switch.takesValue then do (← level.settle).takeSwitch switch value else malformed
  | some switch, none => do
    let level ← level.settle
    if switch.takesValue then return { level with pending := some (switch, none) }
    else level.takeSwitch switch ""

def takeLetters (level : Level) (known : List Switch) (letters : List Char) :
    Except Stop Level :=
  let take (level : Level) (letter : Char) : Except Stop Level :=
    match known.find? (·.letter? == some letter) with
    | none => malformed
    | some switch => do (← level.settle).takeSwitch switch ""
  letters.foldlM take level

/-- Takes an operand of a command. -/
def takeOperand (level : Level) (command : CommandName) (text : String) :
    Except Stop Level := do
  if command.takesOperand level.operands then
    let level ← level.settle
    if text.isEmpty then malformed
    else return { level with operands := level.operands ++ [text] }
  else malformed

/-- What a command is to do. -/
def action? (level : Level) (command : CommandName) : Option Action :=
  let asJson := decide (.json ∈ level.switches)
  match command, level.operands with
  | .dump, [path] =>
    some (.dump path level.running (decide (.noCode ∉ level.switches)) asJson)
  | .verify, path :: paths => some (.verify (path :: paths) level.running)
  | .info, [] => some (.info none asJson)
  | .info, [path] => some (.info (some path) asJson)
  | _, _ => none

end Level

/-! ## Reading -/

structure Reading where
  command : Option CommandName := none
  /-- What stands in front of the command, once it is named. -/
  front : Level := {}
  /-- What stands behind the command, or in front of it if it is not named yet. -/
  level : Level := {}
deriving Inhabited

namespace Reading

def known (reading : Reading) : List Switch := Switch.known reading.command

/-- What all the arguments ask for. -/
def request (reading : Reading) : Except Stop Request := do
  let level ← reading.level.settle
  match reading.command.bind level.action? with
  | none => malformed
  | some action =>
    let front ← reading.front.settle
    return .action (level.settings <|> front.settings) action

/-- Takes an operand that is not the name of a command. -/
def takeOperand (reading : Reading) (text : String) : Except Stop Reading := do
  match reading.command with
  | none => malformed
  | some command => return { reading with level := ← reading.level.takeOperand command text }

/-- Reads the remaining operands. -/
def readOperands (reading : Reading) : List String → Except Stop Request
  | [] => reading.request
  | text :: texts => do readOperands (← reading.takeOperand text) texts

def readHelp : List String → Except Stop Request
  | [] => .ok .help
  | [text] => if text = "help" ∨ (CommandName.ofText? text).isSome then .ok .help else malformed
  | _ => malformed

/-- Reads the remaining arguments. -/
def readArguments (reading : Reading) : List String → Except Stop Request
  | [] => reading.request
  | text :: texts =>
    match Form.ofText text with
    | .doubleHyphen => readOperands reading texts
    | .named name value => do
      let level ← reading.level.takeNamed reading.known name value
      readArguments { reading with level } texts
    | .letters letters => do
      let level ← reading.level.takeLetters reading.known letters
      readArguments { reading with level } texts
    | .operand =>
      match reading.level.waiting?, reading.command, CommandName.ofText? text with
      | some switch, _, _ =>
        let level := { reading.level with pending := some (switch, some text) }
        readArguments { reading with level } texts
      | none, none, some command =>
        readArguments { command := some command, front := reading.level } texts
      | none, none, none => if text = "help" then readHelp texts else malformed
      | none, some _, _ => do readArguments (← reading.takeOperand text) texts

end Reading

def Request.ofArguments (arguments : List String) : Except UsageError Request :=
  match Reading.readArguments {} arguments with
  | .ok request | .error (.request request) => .ok request
  | .error (.misuse error) => .error error

end CompiledScript.CommandLine
