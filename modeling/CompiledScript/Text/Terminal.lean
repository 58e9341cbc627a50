/-!
# Text for terminals

A terminal takes some characters as orders rather than as text: control
characters, and sequences that an escape character starts.  Among these are marks
that set a part of a text off.  Plain text is what is left without orders; white
space stays.

A sequence runs up to a final character.  Sequences that carry a string of their
own run up to the next escape character, or also up to the bell or to a byte that
ends strings.  White space inside a sequence is shown, and so is what follows it,
up to the next order; what follows that order is again part of the sequence.
-/

namespace CompiledScript.Terminal

set_option autoImplicit false

/-! ## Marks -/

/-- A text that is set off by its color. -/
def colored (text : String) : String := "\x1b[33m" ++ text ++ "\x1b[0m"

/-- A text that is set off by its weight. -/
def bold (text : String) : String := "\x1b[1m" ++ text ++ "\x1b[0m"

/-! ## Plain text -/

/-- Where in a text one can be. -/
inductive Mode where
  | text
  /-- Behind an escape character. -/
  | escape
  /-- Behind the characters in the middle of a short sequence. -/
  | short
  /-- In a sequence with parameters. -/
  | parameters
  /-- In the parameters in front of a string. -/
  | opening
  /-- In a string that the bell ends. -/
  | belled
  /-- In another string. -/
  | string
deriving DecidableEq, Inhabited, Repr

/-- The white space among the control characters. -/
def isSpace (char : Char) : Bool := char ∈ ['\t', '\n', '\x0c', '\r']

def isControl (char : Char) : Bool := char.toNat < 0x20 || char == '\x7f'

/-- Whether the byte that ends strings is in the encoding of a character. -/
def endsString (char : Char) : Bool := (String.singleton char).toUTF8.data.contains 0x9c

/-- Where one is behind a character that belongs to no run of shown ones. -/
def Mode.next (mode : Mode) (char : Char) : Mode :=
  if char = '\x1b' then .escape
  else if char = '\x18' ∨ char = '\x1a' then .text
  else
    let isFinal := 0x40 ≤ char.toNat && char.toNat < 0x7f
    match mode with
    | .text => .text
    | .escape =>
      if char = '[' then .parameters
      else if char = ']' then .belled
      else if char = 'P' then .opening
      else if char ∈ ['X', '^', '_'] then .string
      else if 0x20 ≤ char.toNat ∧ char.toNat < 0x30 then .short
      else if 0x30 ≤ char.toNat ∧ char.toNat < 0x7f then .text
      else .escape
    | .short => if 0x30 ≤ char.toNat ∧ char.toNat < 0x7f then .text else .short
    | .parameters => if isFinal then .text else .parameters
    | .opening => if isFinal then .string else .opening
    | .belled => if char = '\x07' then .text else .belled
    | .string => if endsString char then .text else .string

def Mode.shows (mode : Mode) (char : Char) : Bool :=
  match mode with
  | .text => !isControl char || isSpace char
  | .escape | .short | .parameters => isSpace char
  | .opening | .belled | .string => false

/-- Where one is behind a run of shown characters that a character is added to. -/
def Mode.extend (mode : Mode) (char : Char) : Mode := if char.toNat < 0x80 then mode else .text

/-- The characters of a text that are shown, behind those that are `shown` already, last
one first. -/
def plainChars (mode : Mode) (isRun : Bool) (shown : List Char) : List Char → List Char
  | [] => shown.reverse
  | char :: chars =>
    let isShown := if isRun then Mode.text.shows char else mode.shows char
    if isShown then plainChars (mode.extend char) true (char :: shown) chars
    else plainChars (mode.next char) false shown chars

/-- A text without what a terminal takes as orders. -/
def plain (text : String) : String := String.ofList (plainChars .text false [] text.toList)

end CompiledScript.Terminal
