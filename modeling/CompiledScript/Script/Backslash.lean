import CompiledScript.Script.Cursor

/-!
# Backslash sequences

A backslash gives the character behind it another meaning.  Letters stand for
control characters, up to three octal digits for a byte value, and `x`, `u` and
`U` with hexadecimal digits for a code point; digits that name no character are
kept as they are.  A line end with the spaces and tabs after it becomes one
space, and every other character stands for itself.

In a braced word only the line ends have a meaning.  They are recognised by the
run of backslashes in front of them: a run of odd length ends in a backslash
that is not itself hidden by another one.
-/

namespace CompiledScript

set_option autoImplicit false

namespace Backslash

/-- Whether a character belongs to the indentation that a continued line drops. -/
def isIndent (char : Char) : Bool := char == ' ' || char == '\t'

def hexDigit? (char : Char) : Option Nat :=
  if '0' ≤ char ∧ char ≤ '9' then some (char.toNat - 48)
  else if 'a' ≤ char ∧ char ≤ 'f' then some (char.toNat - 87)
  else if 'A' ≤ char ∧ char ≤ 'F' then some (char.toNat - 55)
  else none

def octalDigit? (char : Char) : Option Nat :=
  if '0' ≤ char ∧ char ≤ '7' then some (char.toNat - 48) else none

/-- The digits that `chars` starts with, at most `count` of them. -/
def leadingDigits (digit? : Char → Option Nat) (count : Nat) (chars : List Char) : List Char :=
  (chars.take count).takeWhile fun char => (digit? char).isSome

/-- The number written by digits of the given base, most significant first. -/
def numberOf (digit? : Char → Option Nat) (base : Nat) (digits : List Char) : Nat :=
  digits.foldl (fun number char => number * base + (digit? char).getD 0) 0

/-- What a letter with hexadecimal digits stands for: the code point of the digits, or
the letter and the digits themselves if there is none. -/
def hexChars (letter : Char) (digits : List Char) : List Char :=
  let number := numberOf hexDigit? 16 digits
  if digits ≠ [] ∧ number.isValidChar then [Char.ofNat number] else letter :: digits

/-- A letter with at most `count` hexadecimal digits, of which `chars` is what follows. -/
def decodeHex (letter : Char) (count : Nat) (offset : Nat) (chars : List Char) :
    List Char × Cursor :=
  let digits := leadingDigits hexDigit? count chars
  (hexChars letter digits, ⟨offset + digits.length, chars.drop digits.length⟩)

/-- The characters that a backslash sequence stands for, and the position behind it.
The offset and the characters are those behind the backslash. -/
def decode (offset : Nat) : List Char → List Char × Cursor
  | [] => (['\\'], ⟨offset, []⟩)
  | char :: rest =>
    let next := offset + char.utf8Size
    match char with
    | 'n' => (['\n'], ⟨next, rest⟩)
    | 't' => (['\t'], ⟨next, rest⟩)
    | 'r' => (['\r'], ⟨next, rest⟩)
    | 'a' => (['\x07'], ⟨next, rest⟩)
    | 'b' => (['\x08'], ⟨next, rest⟩)
    | 'f' => (['\x0c'], ⟨next, rest⟩)
    | 'v' => (['\x0b'], ⟨next, rest⟩)
    | '\n' =>
      let indent := rest.takeWhile isIndent
      ([' '], ⟨next + indent.length, rest.drop indent.length⟩)
    | 'x' => decodeHex 'x' 2 next rest
    | 'u' => decodeHex 'u' 4 next rest
    | 'U' => decodeHex 'U' 8 next rest
    | _ =>
      if (octalDigit? char).isSome then
        let more := leadingDigits octalDigit? 2 rest
        let number := numberOf octalDigit? 8 (char :: more)
        ([Char.ofNat (number % 256)], ⟨next + more.length, rest.drop more.length⟩)
      else ([char], ⟨next, rest⟩)

theorem decode_length_le (offset : Nat) (chars : List Char) :
    (decode offset chars).2.rest.length ≤ chars.length := by
  unfold decode
  split
  · simp
  · rename_i char rest
    simp only
    split <;> simp [decodeHex] <;> (try omega)
    -- What is left is a character with nothing of its own, which may be an octal digit.
    split
    · simp only [List.length_drop]
      omega
    · exact Nat.le_succ _

/-! ## Continued lines in braced words -/

/-- The text so far, reversed, followed by the rest with its continued lines joined.
`run` is the number of backslashes directly in front of the rest. -/
def joinLines (joined : List Char) (run : Nat) : List Char → List Char
  | [] => joined.reverse
  | '\\' :: '\n' :: rest =>
    if run % 2 = 1 then joinLines ('\n' :: '\\' :: joined) 0 rest
    else joinLines (' ' :: joined) 0 (rest.dropWhile isIndent)
  | char :: rest =>
    joinLines (char :: joined) (if char = '\\' then run + 1 else 0) rest
termination_by chars => chars.length
decreasing_by
  all_goals simp only [List.length_cons]
  · omega
  · have shorter := (List.dropWhile_suffix (l := rest) isIndent).length_le
    omega
  · omega

/-- The value of a braced word with the given content. -/
def collapse (content : List Char) : List Char := joinLines [] 0 content

theorem joinLines_cons {char : Char} {rest : List Char}
    (other : ∀ behind, char = '\\' → rest = '\n' :: behind → False) (joined : List Char)
    (run : Nat) :
    joinLines joined run (char :: rest) =
      joinLines (char :: joined) (if char = '\\' then run + 1 else 0) rest := by
  rw [joinLines]
  exact other

/-- What was read before stays in front. -/
theorem joinLines_append (more joined : List Char) (run : Nat) (chars : List Char) :
    joinLines (joined ++ more) run chars = more.reverse ++ joinLines joined run chars := by
  fun_induction joinLines joined run chars with
  | case1 => simp [joinLines]
  | case2 joined run rest odd ih =>
    rw [joinLines, if_pos odd]
    exact ih
  | case3 joined run rest even ih =>
    rw [joinLines, if_neg even]
    exact ih
  | case4 joined run char rest other ih =>
    rw [joinLines_cons other]
    exact ih

theorem joinLines_eq (joined chars : List Char) :
    joinLines joined 0 chars = joined.reverse ++ collapse chars :=
  joinLines_append joined [] 0 chars

end Backslash

end CompiledScript
