import CompiledScript.Toml.Digit
import CompiledScript.Toml.Outline
import CompiledScript.Toml.Value

/-!
# Strings and names

Between double quotes a backslash starts an escape; between single quotes it
stands for itself.  In a string over several lines a backslash at the end of a line
joins the lines.

A part of a key is a name: a word of letters, digits, hyphens and underscores, or a
string on one line.
-/

namespace CompiledScript.Toml

set_option autoImplicit false

/-! ## Escapes -/

/-- The character with the given number of hexadecimal digits as its code. -/
def readCode (count : Nat) : Reader Char := fun chars => do
  let digits ← (chars.take count).mapM (digit? 16)
  let code := digits.foldl (fun value digit => 16 * value + digit) 0
  if digits.length = count ∧ code.isValidChar then
    return (Char.ofNat code, chars.drop count)
  else none

/-- The character that an escape stands for, behind its backslash. -/
def readEscape : Reader Char := do
  match ← .next with
  | 'b' => return '\x08'
  | 't' => return '\t'
  | 'n' => return '\n'
  | 'f' => return '\x0c'
  | 'r' => return '\r'
  | 'e' => return '\x1b'
  | '"' => return '"'
  | '\\' => return '\\'
  | 'x' => readCode 2
  | 'u' => readCode 4
  | 'U' => readCode 8
  | _ => .refuse

/-- Passes over blanks and ends of lines, of which there must be one, if they come
next, and says whether they did. -/
def passesBreak : Reader Bool := fun chars =>
  match (do readBlanks; passesLineEnd : Reader Bool) chars with
  | some (true, rest) => some (true, ((readGap : Reader Unit) rest).elim rest (·.2))
  | _ => some (false, chars)
where
  /-- Blanks and ends of lines. -/
  readGap : Reader Unit :=
    .iterate (fun _ => do
      readBlanks
      if ← passesLineEnd then return .inl () else return .inr ()) ()

/-! ## Strings -/

/-- The text of a string, with escapes or without, on one line or over several. -/
def readText (hasEscapes isLong : Bool) : Reader String :=
  .iterate (fun read => do
    if (← .peek?).isNone then return .inr (String.ofList read.reverse)
    else if ← (if isLong then passesLineEnd else return false) then return .inl ('\n' :: read)
    else
      let char ← .next
      if char = '\\' ∧ hasEscapes then
        if ← (if isLong then passesBreak else return false) then return .inl read
        else return .inl ((← readEscape) :: read)
      else
        .require (isContent char)
        return .inl (char :: read)) []

/-- The text that a piece between quotes stands for. -/
def Piece.text? (piece : Piece) : Option String :=
  if piece.isOpen then none
  else
    match piece.style with
    | .word => none
    | .line mark => (readText (mark == escapingMark) false).whole? piece.content
    | .long mark => (readText (mark == escapingMark) true).whole? piece.content

/-! ## Names -/

/-- Whether a character can stand in a name without quotes. -/
def isNameChar (char : Char) : Bool := char.isAlphanum || char == '_' || char == '-'

/-- The name that a part of a key stands for. -/
def Piece.name? (piece : Piece) : Option String :=
  match piece.style with
  | .word =>
    if !piece.isMissing && piece.content.all isNameChar then some (String.ofList piece.content)
    else none
  | .line _ => piece.text?
  | .long _ => none

end CompiledScript.Toml
