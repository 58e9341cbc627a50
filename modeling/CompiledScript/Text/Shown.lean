import CompiledScript.Bytes

/-!
# Bytes shown as text

Bytes that are not the UTF-8 form of a text are shown as one all the same.  What
is part of no character is shown as the replacement character: once for bytes
that start a character and do not finish it, and once for every other byte.
-/

namespace CompiledScript.Bytes

set_option autoImplicit false

/-- For a byte that starts a character of several bytes, how many these are and the bounds
of the second one. -/
def lead? (byte : UInt8) : Option (Nat × UInt8 × UInt8) :=
  if 0xc2 ≤ byte ∧ byte ≤ 0xdf then some (2, 0x80, 0xbf)
  else if byte = 0xe0 then some (3, 0xa0, 0xbf)
  else if byte = 0xed then some (3, 0x80, 0x9f)
  else if 0xe1 ≤ byte ∧ byte ≤ 0xef then some (3, 0x80, 0xbf)
  else if byte = 0xf0 then some (4, 0x90, 0xbf)
  else if 0xf1 ≤ byte ∧ byte ≤ 0xf3 then some (4, 0x80, 0xbf)
  else if byte = 0xf4 then some (4, 0x80, 0x8f)
  else none

/-- How many bytes behind the first one belong to the same character, as far as it goes. -/
def following (first : UInt8) (bytes : Bytes) : Nat :=
  match lead? first, bytes with
  | some (width, low, high), second :: bytes =>
    if low ≤ second ∧ second ≤ high then
      let isLater (byte : UInt8) := 0x80 ≤ byte && byte ≤ 0xbf
      1 + ((bytes.take (width - 2)).takeWhile isLater).length
    else 0
  | none, _ | some _, [] => 0

/-- The characters of bytes, or the replacement character where there are none, behind
what is `read` already. -/
def shownAfter (read : String) : Bytes → String
  | [] => read
  | byte :: bytes =>
    let count := following byte bytes
    shownAfter (read ++ (text? (byte :: bytes.take count)).getD "\ufffd") (bytes.drop count)
termination_by bytes => bytes.length
decreasing_by simp only [List.length_drop, List.length_cons]; omega

/-- The text that bytes are shown as. -/
def shownText (bytes : Bytes) : String := (text? bytes).getD (shownAfter "" bytes)

end CompiledScript.Bytes
