import CompiledScript.Toml.Reader

/-!
# Pieces of documents

Keys and values are written in pieces.  A piece is a word, or it stands between
quotes: one quote on either side on a line, three on either side over several
lines.

Where a piece ends is seen before it is known what the piece means, so a document
is cut into pieces first.  A piece that means nothing is a piece all the same, and
so is a word without characters, which stands where a piece is missing.
-/

namespace CompiledScript.Toml

set_option autoImplicit false

/-- How a piece is written. -/
inductive Style where
  | word
  /-- Between single quote marks of a kind. -/
  | line (mark : Char)
  /-- Between quote marks of a kind, three on either side. -/
  | long (mark : Char)
deriving DecidableEq, Inhabited, Repr

/-- A piece of a document. -/
structure Piece where
  style : Style
  content : List Char
  /-- Whether quotes are missing at the end. -/
  isOpen : Bool := false
deriving DecidableEq, Inhabited, Repr

namespace Piece

/-- What stands where a piece is missing. -/
def missing : Piece := ⟨.word, [], false⟩

/-- Whether this stands where a piece is missing. -/
def isMissing (piece : Piece) : Bool := piece.style == .word && piece.content.isEmpty

/-- The quote mark between which a backslash takes the meaning from the next mark. -/
def escapingMark : Char := '"'

/-- Whether a character takes its meaning from the next one. -/
def escapes (mark char : Char) (isEscaped : Bool) : Bool :=
  mark == escapingMark && char == '\\' && !isEscaped

/-- The content of a piece on one line, behind its first quote mark, and whether the
mark at its end is missing; `read` is the content so far, last character first. -/
def readLine (mark : Char) : (isEscaped : Bool) → (read : List Char) →
    Reader (List Char × Bool)
  | _, read, [] => some ((read.reverse, true), [])
  | isEscaped, read, char :: chars =>
    if char = '\n' then some ((read.reverse, true), char :: chars)
    else if char = mark ∧ !isEscaped then some ((read.reverse, false), chars)
    else readLine mark (escapes mark char isEscaped) (char :: read) chars

/-- The content of a piece over several lines, behind its first three quote marks, and
whether the marks at its end are missing; `read` is the content so far, last character
first.  The marks at its end are the first three in a row; one or two more right behind
them belong to the content. -/
def readLong (mark : Char) : (isEscaped : Bool) → (read : List Char) →
    Reader (List Char × Bool)
  | _, read, [] => some ((read.reverse, true), [])
  | isEscaped, read, char :: chars =>
    if [mark, mark, mark].isPrefixOf (char :: chars) ∧ !isEscaped then
      let more := ((chars.drop 2).take 2).takeWhile (· == mark)
      some (((more ++ read).reverse, false), chars.drop (2 + more.length))
    else readLong mark (escapes mark char isEscaped) (char :: read) chars

/-- A piece, of which a word is what the given reader takes. -/
def read (word : Reader (List Char)) : Reader Piece := do
  match ← .peek? with
  | some '"' => readQuoted '"'
  | some '\'' => readQuoted '\''
  | _ => return ⟨.word, ← word, false⟩
where
  /-- A piece that starts with a quote mark. -/
  readQuoted (mark : Char) : Reader Piece := do
    if ← .passes (String.ofList [mark, mark, mark]) then
      let (content, isOpen) ← readLong mark false []
      return ⟨.long mark, content, isOpen⟩
    else
      let _ ← .next
      let (content, isOpen) ← readLine mark false []
      return ⟨.line mark, content, isOpen⟩

end Piece

end CompiledScript.Toml
