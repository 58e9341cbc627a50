import CompiledScript.Literal.Basic

/-!
# Values of a host

A host has value types of its own.  For the types listed here a literal of a
fixed kind stands for the value, provided the host can convert it; every other
value is represented by its text.
-/

namespace CompiledScript.HostType

set_option autoImplicit false

/-- The host types with a literal of their own, in the order of their names. -/
def all : List (String × Literal.Tag) :=
  [("bignum", .bignum), ("boolean", .boolean), ("booleanString", .boolean),
    ("bytearray", .bytes), ("bytecode", .block), ("dict", .map), ("double", .double),
    ("int", .int64), ("lambda", .closure), ("lambdaExpr", .closure), ("list", .list),
    ("string", .text), ("wideInt", .int64)]

def names : List String := all.map Prod.fst

/-- The kind of literal that stands for values of a host type. -/
def tag? (name : String) : Option Literal.Tag :=
  (all.find? fun entry => entry.1 == name).map Prod.snd

/-- A value of a host as the codec sees it. -/
structure ExternalValue where
  /-- The name of the host's type of the value, if it has one. -/
  typeName : Option String
  /-- The literal the host converts the value to, if it can. -/
  converted : Option Literal
  /-- The text of the value. -/
  representation : String

/-- The literal that stands for a value of a host. -/
def ExternalValue.toLiteral (value : ExternalValue) : Literal :=
  match value.typeName.bind tag?, value.converted with
  | some _, some literal => literal
  | _, _ => .text value.representation

end CompiledScript.HostType
