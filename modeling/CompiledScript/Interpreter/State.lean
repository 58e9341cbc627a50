import CompiledScript.Host.Basic

/-!
# The state of the interpreter

The interpreter keeps a table of commands under their absolute names, the members
of classes, a stack of namespaces and a stack of frames with the variables of the
routines that are running.  Beside these it keeps the lines that were written and
counts how often it compiled or ran something.

Tables keep one value for each key.
-/

namespace CompiledScript

set_option autoImplicit false

/-- The value of each key, the key that was put in last first. -/
abbrev Table (κ α : Type) := List (κ × α)

/-- Puts in a key with its value, in place of the value it had. -/
def Table.put {κ α : Type} [BEq κ] (key : κ) (value : α) (table : Table κ α) : Table κ α :=
  (key, value) :: List.filter (fun entry => !(entry.1 == key)) table

def Table.without {κ α : Type} [BEq κ] (key : κ) (table : Table κ α) : Table κ α :=
  List.filter (fun entry => !(entry.1 == key)) table

/-- The commands that the interpreter has from the start. -/
inductive Builtin where
  | procedure
  | inNamespace
  | createClass
  | defineMember
  | emit
  | assign
  | fail
deriving DecidableEq, Inhabited, Repr

/-- The commands that the interpreter has from the start, under their names. -/
def Builtin.all : Table String Builtin :=
  [("::proc", procedure), ("::namespace", inNamespace), ("::oo::class", createClass),
    ("::oo::define", defineMember), ("::emit", emit), ("::set", assign), ("::error", fail)]

/-- A procedure or class member that can be called. -/
structure Routine where
  /-- The namespace its commands are looked up in. -/
  scope : String
  parameters : List String
  body : Block
deriving Inhabited

/-- What a command name stands for. -/
inductive CommandEntry where
  | builtin (builtin : Builtin)
  | interceptor (interceptor : Interceptor)
  | routine (routine : Routine)
  | classNamed (name : String)
deriving Inhabited

/-- The state of an interpreter. -/
structure Interpreter where
  version : RuntimeVersion
  commands : Table String CommandEntry
  classes : Table String (Table (MethodKind × String) Routine)
  /-- The namespaces that were entered, the current one first. -/
  namespaces : List String
  /-- The variables of the running routines, those of the innermost first. -/
  frames : List (Table String String)
  output : List String
  scriptsCompiled : Nat
  bodiesCompiled : Nat
  executions : Nat
deriving Inhabited

namespace Interpreter

/-- An interpreter of a version that has not done anything yet. -/
def ofVersion (version : RuntimeVersion) : Interpreter where
  version := version
  commands := Builtin.all.map fun (name, builtin) => (name, .builtin builtin)
  classes := []
  namespaces := [Name.global]
  frames := [[]]
  output := []
  scriptsCompiled := 0
  bodiesCompiled := 0
  executions := 0

def currentNamespace (interpreter : Interpreter) : String :=
  interpreter.namespaces.headD Name.global

/-- What a name stands for that is relative to the global namespace. -/
def globally? (interpreter : Interpreter) (name : String) : Option CommandEntry :=
  interpreter.commands.lookup (Name.qualify name Name.global)

/-- What a name stands for in the current namespace or else in the global one. -/
def resolve? (interpreter : Interpreter) (name : String) : Option CommandEntry :=
  (interpreter.commands.lookup (Name.qualify name interpreter.currentNamespace)).or
    (interpreter.globally? name)

/-- Whether a name stands for a command that the interpreter has from the start. -/
def isBuiltin (interpreter : Interpreter) (name : String) : Bool :=
  match interpreter.globally? name with
  | some (.builtin _) => true
  | _ => false

def commandNames (interpreter : Interpreter) : List String :=
  (interpreter.commands.map Prod.fst).mergeSort fun first second => decide (first ≤ second)

/-- The value of a variable of the innermost routine. -/
def valueOf? (interpreter : Interpreter) (name : String) : Option String :=
  interpreter.frames.head?.bind fun frame => frame.lookup name

def setVariable (name value : String) (interpreter : Interpreter) : Interpreter :=
  match interpreter.frames with
  | [] => interpreter
  | frame :: frames => { interpreter with frames := Table.put name value frame :: frames }

def setCommand (name : String) (entry : CommandEntry) (interpreter : Interpreter) : Interpreter :=
  { interpreter with commands := Table.put name entry interpreter.commands }

def members (interpreter : Interpreter) (className : String) :
    Table (MethodKind × String) Routine :=
  (interpreter.classes.lookup className).getD []

/-- Makes a class known, and keeps its members if it is known already. -/
def addClass (name : String) (interpreter : Interpreter) : Interpreter :=
  { interpreter with classes := Table.put name (interpreter.members name) interpreter.classes }

/-- Adds a member to a class, which becomes a command if its name stands for nothing yet. -/
def addMember (className : String) (kind : MethodKind) (name : String) (routine : Routine)
    (interpreter : Interpreter) : Interpreter :=
  let members := Table.put (kind, name) routine (interpreter.members className)
  let known := { interpreter with classes := Table.put className members interpreter.classes }
  match interpreter.commands.lookup className with
  | some _ => known
  | none => known.setCommand className (.classNamed className)

/-- The member that a call of a class reaches: a method before a class method, and a
constructor last. -/
def member? (interpreter : Interpreter) (className name : String) : Option Routine :=
  [MethodKind.method, .classMethod, .constructor].findSome? fun kind =>
    (interpreter.members className).lookup (kind, name)

end Interpreter

end CompiledScript
