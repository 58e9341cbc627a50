import CompiledScript.Script.Word

/-!
# Positions in a script

A cursor is a position in a script: the byte offset and the characters from
there on.  The functions of this module move a cursor over what separates words
and commands.  None of them goes back, which the parser's termination rests on.

Blanks are the space, the tab, the carriage return, the vertical tab and the form
feed.  A backslash in front of a line end makes the two of them a blank as well.
-/

namespace CompiledScript

set_option autoImplicit false

structure Cursor where
  /-- The byte offset of the position. -/
  offset : Nat
  /-- The characters from the position on. -/
  rest : List Char
deriving DecidableEq, Inhabited, Repr

/-- What a parsing function found, and where it stands afterwards. -/
structure Parsed (α : Type) where
  outcome : Except ParseError α
  cursor : Cursor

namespace Cursor

def start (script : String) : Cursor := ⟨0, script.toList⟩

/-! ## Kinds of characters -/

def isBlank (char : Char) : Bool :=
  char == ' ' || char == '\t' || char == '\r' || char == '\x0b' || char == '\x0c'

def isNameChar (char : Char) : Bool :=
  char == '_' || char == ':' || char.isAlphanum

/-- Whether a word ends in front of the given characters.  Inside a substitution the
closing bracket is the `terminator` and ends words too. -/
def isWordEnd (terminator : Option Char) : List Char → Bool
  | [] => true
  | '\\' :: '\n' :: _ => true
  | char :: _ => isBlank char || char == '\n' || char == ';' || some char == terminator

/-! ## Moving on -/

/-- The position behind blanks and continued lines. -/
def skipBlanks (offset : Nat) : List Char → Cursor
  | [] => ⟨offset, []⟩
  | '\\' :: '\n' :: rest => skipBlanks (offset + 2) rest
  | char :: rest =>
    if isBlank char then skipBlanks (offset + 1) rest else ⟨offset, char :: rest⟩

/-- The position of the next command: behind blanks, command ends and comments.  In a
comment a backslash hides the character behind it, and a comment inside a
substitution ends in front of the closing bracket. -/
def skipGap (terminator : Option Char) (inComment : Bool) (offset : Nat) : List Char → Cursor
  | [] => ⟨offset, []⟩
  | '\\' :: char :: rest =>
    if inComment then skipGap terminator true (offset + 1 + char.utf8Size) rest
    else if char == '\n' then skipGap terminator false (offset + 2) rest
    else ⟨offset, '\\' :: char :: rest⟩
  | char :: rest =>
    if char == '\n' then skipGap terminator false (offset + 1) rest
    else if inComment then
      if some char == terminator then ⟨offset, char :: rest⟩
      else skipGap terminator true (offset + char.utf8Size) rest
    else if isBlank char || char == ';' then skipGap terminator false (offset + 1) rest
    else if char == '#' then skipGap terminator true (offset + 1) rest
    else ⟨offset, char :: rest⟩

/-- The characters in front of `stop`, of those that `chars` starts with. -/
def upTo (count : Nat) (taken : List Char) : List Char → List Char
  | [] => taken.reverse
  | char :: chars =>
    if count = 0 then taken.reverse else upTo (count - char.utf8Size) (char :: taken) chars

/-- The source text between two positions. -/
def textTo (start stop : Cursor) : String :=
  String.ofList (upTo (stop.offset - start.offset) [] start.rest)

/-! ## Nothing goes back -/

theorem skipBlanks_length_le (offset : Nat) (chars : List Char) :
    (skipBlanks offset chars).rest.length ≤ chars.length := by
  fun_induction skipBlanks offset chars with
  | case1 => simp
  | case2 offset rest ih =>
    simp only [List.length_cons]
    omega
  | case3 offset char rest _ _ ih =>
    simp only [List.length_cons]
    omega
  | case4 => simp

theorem skipGap_length_le (terminator : Option Char) (inComment : Bool) (offset : Nat)
    (chars : List Char) :
    (skipGap terminator inComment offset chars).rest.length ≤ chars.length := by
  fun_induction skipGap terminator inComment offset chars <;>
    simp only [List.length_cons, List.length_nil] <;> omega

end Cursor

end CompiledScript
