import CompiledScript.Text.Hex

/-!
# JSON

A JSON value is laid out over lines, one item or member a line and two blanks
further to the right inside each bracket.  Empty arrays and objects stay in one
piece.  Members keep the order they are given in.

Numbers are kept as their digits, so what is written does not depend on how
large a number a reader can hold.
-/

namespace CompiledScript

set_option autoImplicit false

inductive Json where
  | null
  | boolean (value : Bool)
  /-- A number, by its written form. -/
  | number (digits : String)
  | text (value : String)
  | array (items : List Json)
  | object (members : List (String × Json))
deriving Inhabited

namespace Json

def natural (value : Nat) : Json := .number (toString value)

def integer (value : Int) : Json := .number (toString value)

/-- A value of some kind, marked with the name of the kind. -/
def tagged (kind : String) (content : Json) : Json := .object [(kind, content)]

/-! ## Texts -/

/-- A character as it stands between the quotes. -/
def shown (char : Char) : String :=
  match char with
  | '"' => "\\\""
  | '\\' => "\\\\"
  | '\x08' => "\\b"
  | '\x0c' => "\\f"
  | '\n' => "\\n"
  | '\r' => "\\r"
  | '\t' => "\\t"
  | char => if char.toNat < 0x20 then "\\u" ++ Hex.padded 4 char.toNat else char.toString

def quoted (text : String) : String :=
  "\"" ++ String.join (text.toList.map shown) ++ "\""

/-! ## Values -/

/-- The start of a new line at a depth. -/
def newLine (depth : Nat) : String :=
  "\n" ++ String.ofList (List.replicate (2 * depth) ' ')

mutual

/-- What was written so far, with a value at the given depth behind it. -/
def writeAfter (before : String) (depth : Nat) : Json → String
  | .null => before ++ "null"
  | .boolean value => before ++ toString value
  | .number digits => before ++ digits
  | .text value => before ++ quoted value
  | .array [] => before ++ "[]"
  | .array (item :: items) =>
    let first := writeAfter (before ++ "[" ++ newLine (depth + 1)) (depth + 1) item
    writeItemsAfter first (depth + 1) items ++ newLine depth ++ "]"
  | .object [] => before ++ "\x7b\x7d"
  | .object ((key, value) :: members) =>
    let start := before ++ "\x7b" ++ newLine (depth + 1) ++ quoted key ++ ": "
    let first := writeAfter start (depth + 1) value
    writeMembersAfter first (depth + 1) members ++ newLine depth ++ "\x7d"

/-- What was written so far, with further items behind it. -/
def writeItemsAfter (before : String) (depth : Nat) : List Json → String
  | [] => before
  | item :: items =>
    writeItemsAfter (writeAfter (before ++ "," ++ newLine depth) depth item) depth items

/-- What was written so far, with further members behind it. -/
def writeMembersAfter (before : String) (depth : Nat) : List (String × Json) → String
  | [] => before
  | (key, value) :: members =>
    let start := before ++ "," ++ newLine depth ++ quoted key ++ ": "
    writeMembersAfter (writeAfter start depth value) depth members

end

/-- The text of a value, laid out over lines. -/
def write (value : Json) : String := writeAfter "" 0 value

end Json

end CompiledScript
