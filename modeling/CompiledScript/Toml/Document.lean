import CompiledScript.Toml.Fault
import CompiledScript.Toml.Number
import CompiledScript.Toml.Text

/-!
# TOML documents

A document gives a table.  Its outline is found first; then its lines are taken one
after the other.  An entry is added to the table that is open, and a header closes
that table and opens another.

A document whose punctuation makes no sense is refused for that, whatever else is
wrong with it.  Otherwise the first line at fault decides, and in a line the key
comes before the value.  Whether a series can have one more table shows when the
table is closed.
-/

namespace CompiledScript.Toml

set_option autoImplicit false

/-! ## Values -/

/-- The most parts that a key can have in front of the last one, and one. -/
def maxPath : Nat := 80

/-- The names that a key stands for: those in front of the last one, and the last. -/
def Key.names (key : Key) : Except Fault (List String × String) := do
  let path ← Fault.orMalformed (key.path.mapM Piece.name?)
  let last ← Fault.orMalformed key.last.name?
  if maxPath ≤ path.length then throw .longKey
  return (path, last)

def Piece.value? (piece : Piece) : Option Value :=
  match piece.style with
  | .word => word? piece.content
  | .line _ | .long _ => Value.text <$> piece.text?

mutual

def Expression.value : Expression → Except Fault Value
  | .scalar piece => Fault.orMalformed piece.value?
  | .array items => do return .array (← valuesOf [] items)
  | .braces entries => do return .table .braces (← entriesOf [] entries)

/-- The values of expressions, behind those that are `read` already, last one first. -/
def valuesOf (read : List Value) : List Expression → Except Fault (List Value)
  | [] => return read.reverse
  | item :: items => do
    let value ← item.value
    valuesOf (value :: read) items

/-- The entries of a table with those between braces added. -/
def entriesOf (entries : Entries) : List (Key × Expression) → Except Fault Entries
  | [] => return entries
  | (key, expression) :: rest => do
    let (path, last) ← key.names
    let value ← expression.value
    entriesOf (← Fault.orMalformed (entries.define path last value)) rest

end

/-! ## Lines -/

/-- What a header opens. -/
structure Heading where
  isSeries : Bool
  path : List String
  name : String
deriving DecidableEq, Inhabited, Repr

/-- A document that is read up to the start of a line. -/
structure Progress where
  /-- The entries that the tables in front of the open one give. -/
  closed : Entries := []
  /-- What opened the table that is open, if not the start of the document. -/
  heading : Option Heading := none
  /-- The entries of the table that is open. -/
  table : Entries := []

/-- The entries of a document whose last table is closed. -/
def Progress.entries? (progress : Progress) : Option Entries :=
  match progress.heading with
  | none => some progress.table
  | some ⟨false, path, name⟩ => progress.closed.putTable path name progress.table
  | some ⟨true, path, name⟩ => progress.closed.putNext path name progress.table

/-- What a line makes of a document. -/
def Progress.take (progress : Progress) : Line → Except Fault Progress
  | .header isSeries key => do
    let closed ← Fault.orMalformed progress.entries?
    let (path, name) ← key.names
    let table ← if isSeries then .ok [] else Fault.orMalformed (closed.opened path name)
    return ⟨closed, some ⟨isSeries, path, name⟩, table⟩
  | .entry key expression => do
    let (path, name) ← key.names
    let value ← expression.value
    let table ← Fault.orMalformed (progress.table.define path name value)
    return { progress with table := table }

/-- The table that a text is the TOML form of. -/
def parse (text : String) : Except Fault Entries := do
  let lines ← Fault.orMalformed (outline? text)
  Fault.orMalformed (← lines.foldlM Progress.take {}).entries?

end CompiledScript.Toml
