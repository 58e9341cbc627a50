import CompiledScript.Interpreter.State
import CompiledScript.Script.Parser
import CompiledScript.Text.Blank

/-!
# Running scripts

A script is run command by command.  The words of a command are substituted, and
the command that the first one names is called with the others.  Substitution is
limited to whole words: a variable, or a script between brackets.

Running a script may run others: the body of a namespace, of a routine, or
between brackets.  How deep this may go is what everything here recurses on; a
run that goes deeper fails.
-/

namespace CompiledScript.Interpreter

set_option autoImplicit false

abbrev Action (α : Type) := HostM Interpreter α

def fail {α : Type} (message : String) : Action α := throw ⟨message⟩

def look {α : Type} (view : Interpreter → α) : Action α := return view (← get).host

def update (change : Interpreter → Interpreter) : Action Unit :=
  modify fun world => { world with host := change world.host }

/-- What a call with unfit arguments fails with. -/
def wrongArguments {α : Type} : Action α := fail "wrong # args"

def textAt (arguments : List Argument) (index : Nat) : Action String :=
  match arguments[index]?.bind Argument.text? with
  | some text => return text
  | none => wrongArguments

/-- The texts of arguments in a line. -/
def line (arguments : List Argument) : String :=
  " ".intercalate (arguments.map Argument.shown)

/-! ## Compiling -/

/-- The first error of a text that is no script. -/
def syntaxError? (commands : List (Except ParseError Command)) : Option ParseError :=
  commands.findSome? fun command =>
    match command with
    | .ok _ => none
    | .error error => some error

/-- The values of the literal words of commands, each once, in the order in which they first
appear. -/
def literalValues (commands : List (Except ParseError Command)) : List String :=
  let words := commands.flatMap fun command =>
    match command with
    | .ok command => command.words.filterMap Word.literal?
    | .error _ => []
  words.eraseDups

/-- Compiles a script to a block that has the script as its code and the literal words as its
literals. -/
def compileScript (source : String) : Action Block := do
  update fun interpreter =>
    { interpreter with scriptsCompiled := interpreter.scriptsCompiled + 1 }
  let commands := parseScript source
  match syntaxError? commands with
  | some error => fail s!"syntax error: {error.message}"
  | none =>
    return { Block.empty with
      code := Bytes.ofText source
      literals := (literalValues commands).map .text
      maxStack := UInt32.ofNat commands.length
      compiledLocals := some 0 }

/-- Compiles a body to a block that has the body as its code and its namespace and argument
specification as its literals. -/
def compileBody (source : BodySource) : Action Block := do
  match syntaxError? (parseScript source.body) with
  | some error => fail s!"syntax error in \"{source.name}\": {error.message}"
  | none =>
    update fun interpreter =>
      { interpreter with bodiesCompiled := interpreter.bodiesCompiled + 1 }
    return { Block.empty with
      code := Bytes.ofText source.body
      literals := [.text source.scope, .text source.arguments]
      compiledLocals := some (UInt32.ofNat (Blank.words source.arguments).length) }

/-- The routine of a definition, whose body is compiled unless it was compiled ahead of
time. -/
def makeRoutine (body : Argument) (name scope arguments : String) (kind : DefinitionKind) :
    Action Routine := do
  let parameters := Blank.words arguments
  match body with
  | .text body =>
    return ⟨scope, parameters, ← compileBody ⟨name, scope, arguments, body, kind⟩⟩
  | .precompiled body => return ⟨body.scope, parameters, body.block⟩

/-! ## Calling -/

/-- Does something and takes back what was entered for it, whatever it results in. -/
def leaving {α : Type} (action : Action α) (leave : Interpreter → Interpreter) : Action α := do
  match ← action.attempted with
  | .ok value =>
    update leave
    return value
  | .error error =>
    update leave
    throw error

def enter (scope : String) (interpreter : Interpreter) : Interpreter :=
  { interpreter with namespaces := scope :: interpreter.namespaces }

/-- Goes back to the namespace that was current before. -/
def leave (interpreter : Interpreter) : Interpreter :=
  { interpreter with namespaces := interpreter.namespaces.tail }

/-- The variables of a routine that is called with arguments. -/
def frameOf (parameters : List String) (arguments : List Argument) : Table String String :=
  (parameters.zip arguments).foldl
    (fun frame (name, argument) => Table.put name argument.shown frame) []

/-- Calls a routine, whose body is run with `evaluate`. -/
def call (evaluate : String → Action String) (routine : Routine) (arguments : List Argument) :
    Action String := do
  let expected := routine.parameters.length
  if arguments.length ≠ expected then
    fail s!"wrong # args: expected {expected}, got {arguments.length}"
  else
    match Bytes.text? routine.body.code with
    | none => fail "body is not text"
    | some code =>
      update fun interpreter =>
        { enter routine.scope interpreter with
          frames := frameOf routine.parameters arguments :: interpreter.frames }
      leaving (evaluate code) fun interpreter =>
        { leave interpreter with frames := interpreter.frames.tail }

/-- Calls a member of a class.  A class without a constructor can be called for one. -/
def callMember (evaluate : String → Action String) (className : String)
    (arguments : List Argument) : Action String := do
  let name ← textAt arguments 0
  match ← look (·.member? className name) with
  | some routine => call evaluate routine (arguments.drop 1)
  | none =>
    if name = "new" then return ""
    else fail s!"unknown member \"{name}\" of {className}"

/-! ## The commands of the interpreter -/

def defineProcedure (arguments : List Argument) : Action String := do
  match arguments with
  | [_, _, body] =>
    let name := Name.qualify (← textAt arguments 0) (← look currentNamespace)
    let specification ← textAt arguments 1
    let routine ← makeRoutine body name (Name.namespaceOf name) specification .procedure
    update (setCommand name (.routine routine))
    return ""
  | _ => fail "wrong # args: should be \"proc name args body\""

/-- Runs a script in a namespace. -/
def runInNamespace (evaluate : String → Action String) (arguments : List Argument) :
    Action String := do
  if (← textAt arguments 0) ≠ "eval" ∨ arguments.length ≠ 3 then
    fail "unsupported namespace subcommand"
  else
    let scope := Name.qualify (← textAt arguments 1) (← look currentNamespace)
    let script ← textAt arguments 2
    update (enter scope)
    leaving (evaluate script) leave

def createClass (arguments : List Argument) : Action String := do
  if (← textAt arguments 0) ≠ "create" then fail "unsupported oo::class subcommand"
  else
    let name := Name.qualify (← textAt arguments 1) (← look currentNamespace)
    update fun interpreter => (interpreter.addClass name).setCommand name (.classNamed name)
    return name

/-- What a member definition says behind the word that announces its kind. -/
structure MemberShape where
  kind : MethodKind
  name : String
  /-- The name that calls use. -/
  calledAs : String
  arguments : String
  bodyAt : Nat

/-- What a member definition says whose kind is announced by a word. -/
def memberShape (word : String) (arguments : List Argument) : Action MemberShape := do
  match word, arguments.length with
  | "method", 5 =>
    let name ← textAt arguments 2
    return ⟨.method, name, name, ← textAt arguments 3, 4⟩
  | "classmethod", 5 =>
    let name ← textAt arguments 2
    return ⟨.classMethod, name, name, ← textAt arguments 3, 4⟩
  | "constructor", 4 => return ⟨.constructor, "", "new", ← textAt arguments 2, 3⟩
  | "destructor", 3 => return ⟨.destructor, "", "destroy", "", 2⟩
  | "destructor", 4 => return ⟨.destructor, "", "destroy", ← textAt arguments 2, 3⟩
  | _, _ => fail s!"unsupported definition \"{word}\""

def defineMember (arguments : List Argument) : Action String := do
  let className := Name.qualify (← textAt arguments 0) (← look currentNamespace)
  let shape ← memberShape (← textAt arguments 1) arguments
  match arguments[shape.bodyAt]? with
  | none => wrongArguments
  | some body =>
    let routine ←
      makeRoutine body shape.name className shape.arguments (.member shape.kind className)
    update (addMember className shape.kind shape.calledAs routine)
    return ""

/-- Calls a command that the interpreter has from the start. -/
def runBuiltin (evaluate : String → Action String) (arguments : List Argument) :
    Builtin → Action String
  | .procedure => defineProcedure arguments
  | .inNamespace => runInNamespace evaluate arguments
  | .createClass => createClass arguments
  | .defineMember => defineMember arguments
  | .emit => do
    update fun interpreter =>
      { interpreter with output := interpreter.output ++ [line arguments] }
    return line arguments
  | .assign => do
    let name ← textAt arguments 0
    let value ← textAt arguments 1
    update (setVariable name value)
    return value
  | .fail => fail (line arguments)

/-! ## Scripts -/

/-- The script between the brackets of a word that is nothing else. -/
def bracketed? (word : String) : Option String :=
  match word.toList with
  | '[' :: rest =>
    match rest.reverse with
    | ']' :: inner => some (String.ofList inner.reverse)
    | _ => none
  | _ => none

/-- The value that a word stands for. -/
def substitute (evaluate : String → Action String) (word : Word) : Action String := do
  if word.literal then return word.value
  else
    match word.value.toList with
    | '$' :: name =>
      let name := String.ofList name
      match ← look (·.valueOf? name) with
      | some value => return value
      | none => fail s!"can't read \"{name}\": no such variable"
    | _ =>
      match bracketed? word.value with
      | some script => evaluate script
      | none => fail s!"unsupported substitution in {word.value}"

/-- Runs commands one after the other and gives the result of the last one. -/
def runCommands (evaluate : String → Action String)
    (invoke : String → List Argument → Action String) :
    (result : String) → List (Except ParseError Command) → Action String
  | result, [] => return result
  | _, .error error :: _ => fail s!"syntax error: {error.message}"
  | result, .ok command :: commands => do
    match ← command.words.mapM (substitute evaluate) with
    | [] => runCommands evaluate invoke result commands
    | name :: arguments =>
      let result ← invoke name (arguments.map .text)
      runCommands evaluate invoke result commands

/-- What a run that goes too deep fails with. -/
def tooDeep {α : Type} : Action α := fail "too many nested evaluations"

mutual

/-- Runs a script that goes at most `levels` levels deep. -/
def evaluateWithin : (levels : Nat) → (script : String) → Action String
  | 0, _ => tooDeep
  | levels + 1, script =>
    runCommands (evaluateWithin levels) (invokeWithin levels) "" (parseScript script)

/-- Calls a command that goes at most `levels` levels deep. -/
def invokeWithin : (levels : Nat) → (name : String) → List Argument → Action String
  | 0, _, _ => tooDeep
  | levels + 1, name, arguments => do
    match ← look (·.resolve? name) with
    | some (.builtin builtin) => runBuiltin (evaluateWithin levels) arguments builtin
    | some (.interceptor interceptor) =>
      interceptor.run currentNamespace (invokeWithin levels) arguments
    | some (.routine routine) => call (evaluateWithin levels) routine arguments
    | some (.classNamed className) => callMember (evaluateWithin levels) className arguments
    | none => fail s!"invalid command name \"{name}\""

end

end CompiledScript.Interpreter
