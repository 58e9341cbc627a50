import CompiledScript.Text.Hex
import Mathlib.Tactic.IntervalCases

/-!
# Reading hexadecimal text back

What is written in hexadecimal consists of the sixteen lower-case digits, padding
included, and each of them has the value that it was written for.  A number is
therefore read back from its digits, whatever width it was padded to, and a byte
is always the two digits of its halves.
-/

set_option autoImplicit false

namespace CompiledScript.Hex

/-! ## Digits -/

theorem value?_digit {value : Nat} (small : value < 16) : value? (digit value) = some value := by
  interval_cases value <;> rfl

/-- A character is one of the sixteen digits. -/
def IsDigit (char : Char) : Prop := ∃ value < 16, char = digit value

theorem isDigit_digit {value : Nat} (small : value < 16) : IsDigit (digit value) :=
  ⟨value, small, rfl⟩

theorem isDigit_zero : IsDigit '0' := ⟨0, by decide, rfl⟩

/-- No digit is a blank or ends a line. -/
theorem IsDigit.isWhitespace {char : Char} (isDigit : IsDigit char) :
    char.isWhitespace = false := by
  obtain ⟨value, small, rfl⟩ := isDigit
  interval_cases value <;> rfl

theorem isDigit_of_mem_digits {value : Nat} {char : Char} (found : char ∈ digits value) :
    IsDigit char := by
  fun_induction digits value with
  | case1 value small =>
    obtain rfl := List.mem_singleton.mp found
    exact isDigit_digit small
  | case2 value large ih =>
    rcases List.mem_append.mp found with leading | last
    · exact ih leading
    · obtain rfl := List.mem_singleton.mp last
      exact isDigit_digit (Nat.mod_lt _ (by decide))

theorem toList_padded (width value : Nat) :
    (padded width value).toList =
      List.replicate (width - (digits value).length) '0' ++ digits value :=
  String.toList_ofList

theorem digits_ne_nil (value : Nat) : digits value ≠ [] := by
  rw [digits]
  split <;> simp

theorem padded_ne_nil (width value : Nat) : (padded width value).toList ≠ [] := by
  rw [toList_padded]
  exact List.append_ne_nil_of_right_ne_nil _ (digits_ne_nil value)

theorem isDigit_of_mem_padded {width value : Nat} {char : Char}
    (found : char ∈ (padded width value).toList) : IsDigit char := by
  rw [toList_padded] at found
  rcases List.mem_append.mp found with padding | shown
  · rw [List.eq_of_mem_replicate padding]
    exact isDigit_zero
  · exact isDigit_of_mem_digits shown

/-! ## Numbers -/

/-- The number that lower-case digits stand for. -/
def number? (digits : List Char) : Option Nat :=
  digits.foldlM (fun total char => (value? char).map (16 * total + ·)) 0

theorem number?_digits (value : Nat) : number? (digits value) = some value := by
  fun_induction digits value with
  | case1 value small => simp [number?, value?_digit small]
  | case2 value large ih =>
    rw [number?] at ih ⊢
    simp only [List.foldlM_append, ih, List.foldlM_cons, List.foldlM_nil, bind_pure,
      value?_digit (Nat.mod_lt value (by decide : 0 < 16)), Option.bind_eq_bind, Option.bind_some,
      Option.map_some]
    rw [Nat.div_add_mod]

/-- Zeros in front do not change a number. -/
theorem number?_padding (zeros : Nat) (digits : List Char) :
    number? (List.replicate zeros '0' ++ digits) = number? digits := by
  induction zeros with
  | zero => rfl
  | succ zeros ih =>
    rw [List.replicate_succ, List.cons_append, number?, List.foldlM_cons]
    exact ih

theorem number?_padded (width value : Nat) :
    number? (padded width value).toList = some value := by
  rw [toList_padded, number?_padding, number?_digits]

/-! ## Bytes -/

/-- A byte is written as the digits of its halves, the high half first. -/
theorem toList_byte (value : UInt8) :
    (byte value).toList = [digit (value.toNat / 16), digit (value.toNat % 16)] := by
  have bound : value.toNat < 256 := value.toNat_lt
  rw [byte, toList_padded]
  by_cases small : value.toNat < 16
  · rw [digits, if_pos small, Nat.div_eq_of_lt small, Nat.mod_eq_of_lt small]
    rfl
  · have high : value.toNat / 16 < 16 := by omega
    rw [digits, if_neg small, digits, if_pos high]
    rfl

end CompiledScript.Hex
