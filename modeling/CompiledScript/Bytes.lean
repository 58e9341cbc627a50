/-!
# Byte runs and base-256 digits

Everything that reaches a container file is a run of bytes, and every number in
it is written in base 256 with the least significant digit first.  This module
fixes the run as a list of bytes, gives the two directions of the digit
expansion at a fixed width, and the shortest expansion used for integers of
unbounded size.

The expansion and its value are inverse to each other: a number below `256 ^ w`
is recovered from its `w` digits, and a run of `w` bytes is the expansion of its
own value.  The shortest expansion never ends in a zero digit, which is what
makes it the only one of its value.
-/

set_option autoImplicit false

namespace CompiledScript

/-- A run of bytes, the first byte first. -/
abbrev Bytes := List UInt8

namespace Bytes

/-! ## Digits at a fixed width -/

/-- The lowest `width` base-256 digits of a number, least significant first. -/
def ofNat : (width : Nat) → (value : Nat) → Bytes
  | 0, _ => []
  | width + 1, value => UInt8.ofNat value :: ofNat width (value / 256)

/-- The number whose base-256 digits, least significant first, are the given bytes. -/
def toNat : Bytes → Nat
  | [] => 0
  | digit :: digits => digit.toNat + 256 * toNat digits

@[simp] theorem length_ofNat (width value : Nat) : (ofNat width value).length = width := by
  induction width generalizing value with
  | zero => rfl
  | succ width ih => simp [ofNat, ih]

theorem toNat_lt (digits : Bytes) : toNat digits < Nat.pow 256 digits.length := by
  induction digits with
  | nil => simp [toNat]
  | cons digit digits ih =>
    have bound := digit.toNat_lt
    have larger : Nat.pow 256 (digits.length + 1) = Nat.pow 256 digits.length * 256 := rfl
    simp only [toNat, List.length_cons, larger]
    omega

/-- A number that fits in `width` bytes is the value of its `width` digits. -/
theorem toNat_ofNat {width value : Nat} (fits : value < Nat.pow 256 width) :
    toNat (ofNat width value) = value := by
  induction width generalizing value with
  | zero =>
    have zero : value = 0 := Nat.lt_one_iff.mp fits
    simp [ofNat, toNat, zero]
  | succ width ih =>
    have smaller : value / 256 < Nat.pow 256 width := by
      have larger : Nat.pow 256 (width + 1) = Nat.pow 256 width * 256 := rfl
      omega
    simp only [ofNat, toNat, ih smaller, UInt8.toNat_ofNat']
    omega

/-! ## The shortest expansion -/

/-- The base-256 digits of a number up to its most significant nonzero digit. -/
def shortest (value : Nat) : Bytes :=
  if value = 0 then [] else UInt8.ofNat value :: shortest (value / 256)
termination_by value
decreasing_by omega

theorem shortest_zero : shortest 0 = [] := by
  rw [shortest]
  simp

theorem toNat_shortest (value : Nat) : toNat (shortest value) = value := by
  induction value using Nat.strongRecOn with
  | _ value ih =>
    rw [shortest]
    split
    · simp [toNat, *]
    · rename_i positive
      simp only [toNat, ih (value / 256) (by omega), UInt8.toNat_ofNat']
      omega

/-! ## Cutting a run -/

/-- The first `count` bytes and the bytes after them, when there are that many. -/
def split? (count : Nat) (input : Bytes) : Option (Bytes × Bytes) :=
  let front := input.take count
  if front.length = count then some (front, input.drop count) else none

theorem split?_of_le {count : Nat} {input : Bytes} (enough : count ≤ input.length) :
    split? count input = some (input.take count, input.drop count) := by
  simp [split?, Nat.min_eq_left enough]

theorem split?_of_lt {count : Nat} {input : Bytes} (short : input.length < count) :
    split? count input = none := by
  have missing : min count input.length ≠ count := by omega
  simp [split?, missing]

theorem split?_append (front rest : Bytes) :
    split? front.length (front ++ rest) = some (front, rest) := by
  rw [split?_of_le (by simp)]
  simp

/-! ## Texts as bytes -/

def ofText (text : String) : Bytes := text.toByteArray.data.toList

/-- The text of which the bytes are the UTF-8 form, if there is one. -/
def text? (bytes : Bytes) : Option String := String.fromUTF8? ⟨bytes.toArray⟩

theorem text?_ofText (text : String) : text? (ofText text) = some text := by
  simp only [text?, String.fromUTF8?, String.fromUTF8, ofText, Array.toArray_toList]
  exact dif_pos text.isValidUTF8

theorem ofText_of_text? {bytes : Bytes} {text : String} (read : text? bytes = some text) :
    ofText text = bytes := by
  simp only [text?, String.fromUTF8?] at read
  split at read
  · simp only [Option.some.injEq] at read
    subst read
    simp [ofText, String.fromUTF8]
  · simp at read

theorem ofText_injective {left right : String} (same : ofText left = ofText right) :
    left = right := by
  have read := text?_ofText left
  rw [same, text?_ofText right] at read
  exact (Option.some.inj read).symm

end Bytes

end CompiledScript
