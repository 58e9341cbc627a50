/-!
# Hexadecimal text

Magic numbers, code offsets, code bytes and bit patterns are shown in
hexadecimal, in lower-case digits and padded with zeros to a width that depends
on what is shown.  A number that needs more digits than the width is shown in
full.
-/

set_option autoImplicit false

namespace CompiledScript.Hex

/-- The digit of a value below sixteen. -/
def digit (value : Nat) : Char :=
  if value < 10 then Char.ofNat (48 + value) else Char.ofNat (87 + value)

/-- The hexadecimal digits of a number, most significant first, without padding. -/
def digits (value : Nat) : List Char :=
  if value < 16 then [digit value] else digits (value / 16) ++ [digit (value % 16)]
termination_by value
decreasing_by omega

/-- The digits of a number with zeros in front up to the given width. -/
def padded (width value : Nat) : String :=
  let shown := digits value
  String.ofList (List.replicate (width - shown.length) '0' ++ shown)

/-- A 32-bit word with its radix mark, as magic numbers are shown. -/
def word (value : UInt32) : String :=
  "0x" ++ padded 8 value.toNat

/-- A 64-bit pattern with its radix mark, as the bits of a double are shown. -/
def pattern (value : UInt64) : String :=
  "0x" ++ padded 16 value.toNat

/-- One byte as two digits. -/
def byte (value : UInt8) : String :=
  padded 2 value.toNat

def bytes (run : List UInt8) : String :=
  String.join (run.map byte)

/-! ## Reading -/

/-- The value of a lower-case digit. -/
def value? (char : Char) : Option Nat :=
  if '0' ≤ char ∧ char ≤ '9' then some (char.toNat - 48)
  else if 'a' ≤ char ∧ char ≤ 'f' then some (char.toNat - 87)
  else none

/-- The bytes of a list of digits, two for each, added to those already read, last one first. -/
def bytesAfter? (read : List UInt8) : List Char → Option (List UInt8)
  | [] => some read.reverse
  | [_] => none
  | high :: low :: digits =>
    match value? high, value? low with
    | some high, some low => bytesAfter? (UInt8.ofNat (16 * high + low) :: read) digits
    | _, _ => none

/-- The bytes of a text of digits, two for each byte. -/
def bytes? (text : String) : Option (List UInt8) := bytesAfter? [] text.toList

end CompiledScript.Hex
