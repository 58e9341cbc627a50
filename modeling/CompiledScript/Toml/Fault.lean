/-!
# Faults of documents

A document is refused for one fault, the first that shows.  Almost all faults are
alike to whoever wrote the document; a key with too many parts is reported apart.
-/

namespace CompiledScript.Toml

set_option autoImplicit false

/-- Why a document is refused. -/
inductive Fault where
  /-- The text is not TOML, or a value in it is none that is asked for. -/
  | malformed
  /-- A key has too many parts. -/
  | longKey
deriving DecidableEq, Inhabited, Repr

def Fault.message : Fault → String
  | malformed => "TOML parse error"
  | longKey => "recursion limit\n"

/-- A value that is malformed if it is missing. -/
def Fault.orMalformed {α : Type} (value? : Option α) : Except Fault α :=
  match value? with
  | some value => .ok value
  | none => .error malformed

end CompiledScript.Toml
