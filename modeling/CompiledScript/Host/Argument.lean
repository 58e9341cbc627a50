import CompiledScript.Literal.Equality

/-!
# Arguments of a command

A command is called with a list of arguments.  An argument is a text, as a
script has it, or a body that was compiled ahead of time and stands in the place
of the body's text.
-/

namespace CompiledScript

set_option autoImplicit false

/-- A body that was compiled ahead of time. -/
structure PrecompiledBody where
  /-- The namespace the body was compiled against. -/
  scope : String
  /-- The argument specification it was compiled with, as it was written. -/
  arguments : String
  block : Block
deriving Inhabited

instance : BEq PrecompiledBody where
  beq left right :=
    left.scope == right.scope && left.arguments == right.arguments && left.block == right.block

/-- What a command is called with. -/
inductive Argument where
  | text (value : String)
  | precompiled (body : PrecompiledBody)
deriving Inhabited

namespace Argument

def text? : Argument → Option String
  | text value => some value
  | precompiled _ => none

/-- How an argument appears in a message or a line of output. -/
def shown : Argument → String
  | text value => value
  | precompiled body => s!"<precompiled body in {body.scope}>"

def texts? (arguments : List Argument) : Option (List String) :=
  arguments.mapM text?

end Argument

end CompiledScript
