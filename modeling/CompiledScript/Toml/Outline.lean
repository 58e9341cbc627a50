import CompiledScript.Toml.Piece

/-!
# Outlines of documents

The outline of a document is what its punctuation says.  A document is a sequence
of lines; a line is a header or an entry, which has a key and an expression, and
keys and expressions are made of pieces.  Arrays and tables between braces may run
over several lines.

A part of a key may be missing, and so may the value at the end of an entry.  The
outline still stands then, with a word without characters in that place.

Expressions nest to a bounded depth, so reading one is recursion over that depth.
-/

namespace CompiledScript.Toml

set_option autoImplicit false

/-- A key: the parts in front of the last dot, and the last part. -/
structure Key where
  path : List Piece
  last : Piece
deriving Inhabited

/-- How a value is written. -/
inductive Expression where
  | scalar (piece : Piece)
  /-- Values between brackets. -/
  | array (items : List Expression)
  /-- Keys with values, between braces. -/
  | braces (entries : List (Key × Expression))
deriving Inhabited

/-- A line that says something. -/
inductive Line where
  /-- It opens a table, or the next table of a series. -/
  | header (isSeries : Bool) (key : Key)
  | entry (key : Key) (value : Expression)
deriving Inhabited

/-! ## Between pieces -/

/-- Whether a character separates pieces on a line. -/
def isBlank (char : Char) : Bool := char == ' ' || char == '\t'

/-- Whether a character can stand in a string or a remark: no control characters but tabs. -/
def isContent (char : Char) : Bool := char == '\t' || (0x20 ≤ char.toNat && char.toNat ≠ 0x7f)

def readBlanks : Reader Unit := do let _ ← .run isBlank

/-- Passes over the end of a line if it comes next, and says whether it did. -/
def passesLineEnd : Reader Bool := do
  if ← .passes "\n" then return true
  .passes "\r\n"

/-- Blanks, and a remark if there is one. -/
def readRemark : Reader Unit := do
  readBlanks
  if ← .passes "#" then
    let _ ← .run isContent

/-- Blanks, remarks and ends of lines. -/
def readLines : Reader Unit :=
  .iterate (fun _ => do
    readRemark
    if ← passesLineEnd then return .inl () else return .inr ()) ()

/-- The end of a line or of the document, and what may stand before it. -/
def readLineEnd : Reader Unit := do
  readRemark
  unless ← passesLineEnd do
    .require (← .peek?).isNone

/-! ## Words -/

def partsWords (char : Char) : Bool :=
  isBlank char || char ∈ ['.', '=', ',', '[', ']', '\x7b', '\x7d', '#', '\n', '\r']

/-- Whether a word can start with a character.  A quote mark inside a word belongs to
the word. -/
def startsWord (char : Char) : Bool := !partsWords char && char != '"' && char != '\''

/-- A run of characters none of which parts words. -/
def readWord : Reader (List Char) := .run (!partsWords ·)

/-- Words with points and blanks between them.  Points belong to numbers, and a blank
joins a date to a time of day, so which of these make sense is not seen yet. -/
def readWords : Reader (List Char) :=
  .iterate (fun read => do
    match (← get).span isBlank with
    | ([], char :: _) =>
      if char = '.' then return .inl ((← .next) :: read)
      else if startsWord char then return .inl ((← readWord).reverse ++ read)
      else return .inr read.reverse
    | (blanks, char :: chars) =>
      if startsWord char then
        set (char :: chars)
        return .inl (blanks.reverse ++ read)
      else return .inr read.reverse
    | (_, []) => return .inr read.reverse) []

/-! ## Keys -/

/-- A key.  Parts of it may be missing. -/
def readKey : Reader Key := do
  readBlanks
  let first ← Piece.read readWord
  .iterate (fun key => do
    readBlanks
    if ← .passes "." then
      readBlanks
      return .inl ⟨key.path ++ [key.last], ← Piece.read readWord⟩
    else return .inr key) (⟨[], first⟩ : Key)

/-! ## Expressions -/

/-- A value that holds no others. -/
def readScalar : Reader Expression := do
  let piece ← Piece.read readWords
  .require !piece.isMissing
  return .scalar piece

/-- The value of a key, which may be missing in front of the given characters. -/
def readValue (value : Reader Expression) (isBehind : Option Char → Bool) :
    Reader Expression := do
  if isBehind (← .peek?) then return .scalar .missing
  value

/-- The items of an array, behind its bracket. -/
def readItems (item : Reader Expression) : Reader (List Expression) :=
  .iterate (fun items => do
    readLines
    if ← .passes "]" then return .inr items.reverse
    let value ← item
    readLines
    if ← .passes "," then return .inl (value :: items)
    .expect "]"
    return .inr (value :: items).reverse) []

/-- The entries of a table between braces, behind the first brace.  In front of the
last brace a value may be missing, with or without an equals sign. -/
def readBraces (value : Reader Expression) : Reader (List (Key × Expression)) :=
  .iterate (fun entries => do
    readLines
    if ← .passes "\x7d" then return .inr entries.reverse
    let key ← readKey
    readLines
    let isEnd (next : Option Char) := next == some '\x7d'
    unless isEnd (← .peek?) do
      .expect "="
      readLines
    let entry := (key, ← readValue value isEnd)
    readLines
    if ← .passes "," then return .inl (entry :: entries)
    .expect "\x7d"
    return .inr (entry :: entries).reverse) []

/-- The deepest nesting of arrays and tables between braces. -/
def maxNesting : Nat := 80

/-- An expression with others nested in it to at most the given depth. -/
def readExpression : (depth : Nat) → Reader Expression
  | 0 => readScalar
  | depth + 1 => do
    if ← .passes "[" then return .array (← readItems (readExpression depth))
    else if ← .passes "\x7b" then return .braces (← readBraces (readExpression depth))
    else readScalar

/-! ## Lines -/

/-- Passes over the rest of a line, of which nothing is asked but that quotes and
remarks end. -/
def readRest : Reader Unit :=
  .iterate (fun _ => do
    readBlanks
    if (← .peek?).all (· ∈ ['#', '\n', '\r']) then return .inr (← readLineEnd)
    if (← Piece.read readWord).isMissing then
      let _ ← .next
    return .inl ()) ()

/-- A header, behind its first bracket.  Where the last part of the key is missing,
brackets behind it may be missing too. -/
def readHeader : Reader Line := do
  let isSeries ← .passes "["
  let key ← readKey
  if ← .passes "]" then
    if isSeries then .expect "]"
    readLineEnd
  else
    .require key.last.isMissing
    readRest
  return .header isSeries key

def readEntry : Reader Line := do
  let key ← readKey
  .expect "="
  readBlanks
  let isEnd (next : Option Char) := next.all (· ∈ ['#', '\n', '\r'])
  let value ← readValue (readExpression maxNesting) isEnd
  readLineEnd
  return .entry key value

def readDocument : Reader (List Line) := do
  let _ ← .passes "\ufeff"
  .iterate (fun lines => do
    readLines
    if (← .peek?).isNone then return .inr lines.reverse
    let line ← if ← .passes "[" then readHeader else readEntry
    return .inl (line :: lines)) []

/-- The outline of a document, if its punctuation makes sense. -/
def outline? (text : String) : Option (List Line) := readDocument.whole? text.toList

end CompiledScript.Toml
