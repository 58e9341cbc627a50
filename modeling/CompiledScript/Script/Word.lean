/-!
# Words and commands

A script is a sequence of commands and a command is a sequence of words.  A word
is literal when its value is known from the text alone; otherwise what is kept
of it is its source text.  Positions are byte offsets into the text.
-/

namespace CompiledScript

set_option autoImplicit false

/-- How a word is written. -/
inductive WordForm where
  | bare
  | braced
  | quoted
  /-- A word behind `{*}`, which stands for any number of words. -/
  | expanded
deriving DecidableEq, Inhabited, Repr

/-- A word of a command. -/
structure Word where
  /-- The value of a literal word, and the source text of any other. -/
  value : String
  literal : Bool
  form : WordForm
  offset : Nat
deriving DecidableEq, Inhabited, Repr

/-- The value of a word, if the text alone decides it. -/
def Word.literal? (word : Word) : Option String :=
  if word.literal then some word.value else none

/-- A command: its words, the name first, and where the first word stands. -/
structure Command where
  words : List Word
  offset : Nat
deriving DecidableEq, Inhabited, Repr

/-- The delimiters behind which a word has to end. -/
inductive Delimiter where
  | brace
  | quote
deriving DecidableEq, Inhabited, Repr

def Delimiter.name : Delimiter → String
  | brace => "brace"
  | quote => "quote"

/-- Why a text is not a script. -/
inductive ParseError where
  /-- A brace is not closed in the word that starts at the offset. -/
  | missingCloseBrace (offset : Nat)
  /-- The quoted word that starts at the offset is not closed. -/
  | missingCloseQuote (offset : Nat)
  /-- The substitution that starts at the offset is not closed. -/
  | missingCloseBracket (offset : Nat)
  /-- Something other than the end of the word stands behind a closing delimiter. -/
  | extraCharacters (after : Delimiter) (offset : Nat)
deriving DecidableEq, Inhabited, Repr

namespace ParseError

def offset : ParseError → Nat
  | missingCloseBrace offset | missingCloseQuote offset | missingCloseBracket offset
  | extraCharacters _ offset => offset

def message : ParseError → String
  | missingCloseBrace offset => s!"missing close-brace for word starting at byte {offset}"
  | missingCloseQuote offset => s!"missing close-quote for word starting at byte {offset}"
  | missingCloseBracket offset =>
    s!"missing close-bracket for substitution starting at byte {offset}"
  | extraCharacters after offset =>
    s!"extra characters after close-{after.name} at byte {offset}"

end ParseError

/-! ## Lines -/

/-- The byte offsets of the line ends of a text, of which the first character stands at `offset`. -/
def lineEnds : (offset : Nat) → List Char → List Nat
  | _, [] => []
  | offset, char :: chars =>
    if char = '\n' then offset :: lineEnds (offset + 1) chars
    else lineEnds (offset + char.utf8Size) chars

/-- The line of a byte offset, counted from one, given the offsets of the line ends. -/
def lineAt (ends : List Nat) (offset : Nat) : Nat :=
  (ends.takeWhile (· < offset)).length + 1

/-- The line of a byte offset in a text, counted from one. -/
def lineOf (text : String) (offset : Nat) : Nat :=
  lineAt (lineEnds 0 text.toList) offset

end CompiledScript
