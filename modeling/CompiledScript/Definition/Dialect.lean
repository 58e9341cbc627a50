import CompiledScript.Container.Basic
import CompiledScript.Script.Name

/-!
# The commands that define things

A dialect names the commands and words by which a script defines procedures,
opens namespaces, creates classes and adds members to them.  Command names match
with and without a leading `::`; the other words match as they are.
-/

namespace CompiledScript

set_option autoImplicit false

/-- The words of the definition commands. -/
structure Dialect where
  /-- Defines a procedure: name, arguments, body. -/
  procedure : String := "proc"
  /-- Runs a body in a namespace, with its subcommand. -/
  namespaceEval : String × String := ("namespace", "eval")
  /-- Adds a member to a class: class, kind, and what the kind asks for. -/
  member : String := "oo::define"
  /-- Creates a class, with its subcommand. -/
  classCreate : String × String := ("oo::class", "create")
  method : String := "method"
  classMethod : String := "classmethod"
  constructor : String := "constructor"
  destructor : String := "destructor"
deriving DecidableEq, Inhabited, Repr

namespace Dialect

def isProcedure (dialect : Dialect) (word : String) : Bool := Name.same word dialect.procedure

def isMember (dialect : Dialect) (word : String) : Bool := Name.same word dialect.member

def isNamespaceEval (dialect : Dialect) (command subcommand : String) : Bool :=
  Name.same command dialect.namespaceEval.1 && subcommand == dialect.namespaceEval.2

def isClassCreate (dialect : Dialect) (command subcommand : String) : Bool :=
  Name.same command dialect.classCreate.1 && subcommand == dialect.classCreate.2

def memberKind? (dialect : Dialect) (word : String) : Option MethodKind :=
  if word = dialect.method then some .method
  else if word = dialect.classMethod then some .classMethod
  else if word = dialect.constructor then some .constructor
  else if word = dialect.destructor then some .destructor
  else none

end Dialect

end CompiledScript
