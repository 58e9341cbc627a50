import CompiledScript.Interpreter.Evaluate
import CompiledScript.Replay

/-!
# The interpreter as a host

The interpreter is a host whose blocks have the text of a script as their code.
Its command names are absolute, so the names that it is asked about are taken to
be relative to the global namespace.
-/

namespace CompiledScript.Interpreter

set_option autoImplicit false

/-- How deep the runs of the interpreter go. -/
def maxLevels : Nat := 20000

def evaluate (script : String) : Action String := evaluateWithin maxLevels script

def invoke (name : String) (arguments : List Argument) : Action String :=
  invokeWithin maxLevels name arguments

/-- Runs the script that a block has as its code. -/
def execute (block : Block) : Action String := do
  update fun interpreter => { interpreter with executions := interpreter.executions + 1 }
  match Bytes.text? block.code with
  | none => fail "code is not text"
  | some code => evaluate code

def run (source : String) : Action String := do
  execute (← compileScript source)

def rename (source target : String) : Action Unit := do
  let source := Name.qualify source Name.global
  let target := Name.qualify target Name.global
  if (← look (·.globally? target)).isSome then
    fail s!"can't rename to \"{target}\": command already exists"
  else
    match ← look (·.globally? source) with
    | none => fail s!"can't rename \"{source}\": command doesn't exist"
    | some entry =>
      update fun interpreter =>
        { interpreter with
          commands := Table.put target entry (Table.without source interpreter.commands) }

/-- Makes a name stand for an interceptor. -/
def register (name : String) (interceptor : Interceptor) : Action Unit :=
  update (setCommand (Name.qualify name Name.global) (.interceptor interceptor))

def delete (name : String) : Action Unit := do
  if (← look (·.globally? name)).isNone then
    fail s!"can't delete \"{name}\": command doesn't exist"
  else
    update fun interpreter =>
      { interpreter with
        commands := Table.without (Name.qualify name Name.global) interpreter.commands }

def host : Host Interpreter where
  runtimeVersion := version
  currentNamespace := currentNamespace
  hasCommand interpreter name := (interpreter.globally? name).isSome
  rename := rename
  register := register
  delete := delete
  invoke := invoke
  compileScript := compileScript
  compileBody := compileBody
  execute := execute

end CompiledScript.Interpreter
