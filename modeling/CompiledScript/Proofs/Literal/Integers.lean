import CompiledScript.Proofs.Literal.Recovery
import Mathlib.Algebra.BigOperators.Fin
import Mathlib.Tactic.Ring

/-!
# Wide integers on the wire

A wide integer is written as a sign and the digits of its magnitude in base 256, the
least significant digit first.  The digits stand for a sum of powers of 256, and of all
digits with the same sum only one run does not end in a zero, which is the one that is
written.  Every other run is that one with zeros behind it, and is read as the same
integer, as is any magnitude behind the sign of zero.

Between the signed and the unsigned 64-bit integers in size lie those for which another
tag is used.  They are read under both tags and written under one.
-/

set_option autoImplicit false

namespace CompiledScript

/-! ## Digits of a magnitude -/

namespace Bytes

/-- The sum of the bytes, each one times the power of 256 for its place. -/
def weighted (digits : Bytes) : Nat :=
  ∑ place : Fin digits.length, digits[place].toNat * 256 ^ place.val

/-- The digits do not end in a zero, so none of them could be left away. -/
def Unpadded (digits : Bytes) : Prop := digits.getLast? ≠ some 0

instance (digits : Bytes) : Decidable (Unpadded digits) :=
  inferInstanceAs (Decidable (_ ≠ _))

theorem weighted_cons (digit : UInt8) (digits : Bytes) :
    weighted (digit :: digits) = digit.toNat + 256 * weighted digits := by
  simp only [weighted, List.length_cons, Fin.sum_univ_succ, Finset.mul_sum]
  congr 1
  · simp
  · apply Finset.sum_congr rfl
    intro place _
    simp only [Fin.val_succ, Fin.getElem_fin, List.getElem_cons_succ, pow_succ]
    ring

theorem weighted_eq_toNat (digits : Bytes) : weighted digits = toNat digits := by
  induction digits with
  | nil => rfl
  | cons digit digits ih => rw [weighted_cons, toNat, ih]

theorem Unpadded.tail {digit : UInt8} {digits : Bytes} (unpadded : Unpadded (digit :: digits)) :
    Unpadded digits := by
  cases digits with
  | nil => simp [Unpadded]
  | cons next digits => rwa [Unpadded, List.getLast?_cons_cons] at unpadded

theorem shortest_of_ne_zero {value : Nat} (positive : value ≠ 0) :
    shortest value = UInt8.ofNat value :: shortest (value / 256) := by
  rw [shortest, if_neg positive]

theorem shortest_unpadded (value : Nat) : Unpadded (shortest value) := by
  induction value using Nat.strongRecOn with
  | _ value ih =>
    by_cases zero : value = 0
    · rw [zero, shortest_zero]
      simp [Unpadded]
    have above := ih (value / 256) (by omega)
    rw [shortest_of_ne_zero zero]
    by_cases last : value / 256 = 0
    · have digit : UInt8.ofNat value ≠ 0 := by
        intro same
        have number : (UInt8.ofNat value).toNat = 0 := congrArg UInt8.toNat same
        rw [UInt8.toNat_ofNat'] at number
        omega
      rw [last, shortest_zero]
      simpa [Unpadded] using digit
    · rw [shortest_of_ne_zero last] at above ⊢
      rwa [Unpadded, List.getLast?_cons_cons]

/-- Digits that are not padded are the shortest ones of their value. -/
theorem shortest_toNat {digits : Bytes} (unpadded : Unpadded digits) :
    shortest (toNat digits) = digits := by
  induction digits with
  | nil => exact shortest_zero
  | cons digit digits ih =>
    have above := ih unpadded.tail
    have bound := digit.toNat_lt
    -- A run of zeros alone would end in one.
    have positive : toNat (digit :: digits) ≠ 0 := by
      intro zero
      rw [toNat] at zero
      have none : digits = [] := by
        rw [← above, show toNat digits = 0 by omega, shortest_zero]
      have last : digit = 0 := UInt8.toNat_inj.mp (show digit.toNat = 0 by omega)
      exact unpadded (by rw [none, last]; rfl)
    have low : UInt8.ofNat (toNat (digit :: digits)) = digit := by
      apply UInt8.toNat_inj.mp
      rw [UInt8.toNat_ofNat', toNat]
      omega
    have high : toNat (digit :: digits) / 256 = toNat digits := by
      rw [toNat]
      omega
    rw [shortest_of_ne_zero positive, low, high, above]

/-- A number has one run of digits that is not padded. -/
theorem weighted_unpadded_iff {digits : Bytes} {value : Nat} :
    weighted digits = value ∧ Unpadded digits ↔ digits = shortest value := by
  rw [weighted_eq_toNat]
  constructor
  · rintro ⟨rfl, unpadded⟩
    exact (shortest_toNat unpadded).symm
  · rintro rfl
    exact ⟨toNat_shortest value, shortest_unpadded value⟩

end Bytes

namespace Literal

/-! ## The wire form -/

/-- The bytes of a wide integer: its tag, a sign, and a magnitude behind its length. -/
def integerForm (sign : UInt8) (magnitude : Bytes) : Bytes :=
  Bytes.ofNat 4 Tag.bignum.code.toNat ++ (sign :: (Bytes.ofNat 4 magnitude.length ++ magnitude))

/-- The integer of a sign and a magnitude, for the signs of zero, of positive and of negative
integers. -/
def signed (sign : UInt8) (magnitude : Bytes) : Int :=
  if sign = 0 ∨ magnitude = [] then 0
  else if sign = 1 then Bytes.weighted magnitude
  else -Bytes.weighted magnitude

theorem ofSignAndMagnitude_eq_signed {sign : UInt8} (known : sign ≤ 2) (magnitude : Bytes) :
    ofSignAndMagnitude sign magnitude = signed sign magnitude := by
  rw [ofSignAndMagnitude, signed, Bytes.weighted_eq_toNat]
  by_cases zero : sign = 0
  · simp [zero]
  by_cases empty : magnitude = []
  · simp [empty, Bytes.toNat]
  have other : sign = 1 ∨ sign = 2 := by
    have nonzero : sign.toNat ≠ 0 := fun same => zero (UInt8.toNat_inj.mp same)
    have bound : sign.toNat ≤ 2 := UInt8.le_iff_toNat_le.mp known
    have either : sign.toNat = 1 ∨ sign.toNat = 2 := by omega
    exact either.imp UInt8.toNat_inj.mp UInt8.toNat_inj.mp
  rcases other with rfl | rfl
  · simp [empty]
  · simp [empty]

theorem signCode_eq (value : Int) :
    signCode value = if value = 0 then 0 else if 0 < value then 1 else 2 := by
  rcases Int.lt_trichotomy value 0 with negative | rfl | positive
  · rw [signCode, if_neg (by omega), if_pos negative, if_neg (by omega), if_neg (by omega)]
  · rfl
  · rw [signCode, if_neg (by omega), if_neg (by omega), if_neg (by omega), if_pos positive]

/-- A wide integer does not depend on how many levels may be opened. -/
theorem encode_bigInt (limits : Limits) (value : Int) :
    encode limits (bigInt value) =
      Encoder.word32 (bigInt value).tag.code ++
        if needsUnsigned value then Encoder.word64 (UInt64.ofNat value.toNat)
        else encodeInteger limits value := by
  rw [encode]
  cases limits.maxDepth with
  | zero => rfl
  | succ levels => rfl

theorem tag_bignum_iff {value : Int} :
    (bigInt value).tag = .bignum ↔
      (-9223372036854775808 ≤ value ∧ value < 9223372036854775808) ∨
        ¬ (0 ≤ value ∧ value < 18446744073709551616) := by
  have needs : needsUnsigned value = true ↔
      9223372036854775808 ≤ value ∧ value < 18446744073709551616 := by
    rw [needsUnsigned, Bool.and_eq_true, decide_eq_true_eq, decide_eq_true_eq]
  rw [tag]
  split
  · rename_i unsigned
    have range := needs.mp unsigned
    exact iff_of_false (by decide) (by omega)
  · rename_i other
    have range := mt needs.mpr other
    exact iff_of_true rfl (by omega)

/-- A wide integer with the tag of its own is written as its sign and its shortest magnitude, if
that is within the bound. -/
theorem writes_bigInt {limits : Limits} {value : Int} (tagged : (bigInt value).tag = .bignum)
    {bytes : Bytes} :
    (encode limits (bigInt value)).Writes bytes ↔
      (Bytes.shortest value.natAbs).length ≤ limits.maxStringLength ∧
        (Bytes.shortest value.natAbs).length < 4294967296 ∧
        bytes = integerForm (signCode value) (Bytes.shortest value.natAbs) := by
  have narrow : needsUnsigned value = false := by
    cases needs : needsUnsigned value with
    | false => rfl
    | true => simp [tag, needs] at tagged
  rw [encode_bigInt, tagged, narrow, if_neg Bool.false_ne_true, encodeInteger, Encoder.bytes,
    Encoder.word32, Encoder.byte, integerForm]
  simp only [Encoder.writes_append, Encoder.writes_raw, Encoder.writes_count]
  constructor
  · rintro ⟨_, _, rfl, ⟨_, _, rfl, ⟨_, _, ⟨small, word, rfl⟩, rfl, rfl⟩, rfl⟩, rfl⟩
    exact ⟨small, word, rfl⟩
  · rintro ⟨small, word, rfl⟩
    exact ⟨_, _, rfl, ⟨_, _, rfl, ⟨_, _, ⟨small, word, rfl⟩, rfl, rfl⟩, rfl⟩, rfl⟩

open Decoder in
theorem reads_integerForm {limits : Limits} {sign : UInt8} {magnitude : Bytes}
    (known : sign ≤ 2) (small : magnitude.length ≤ limits.maxStringLength)
    (word : magnitude.length < 4294967296) :
    (decode limits).Reads (integerForm sign magnitude) (bigInt (signed sign magnitude)) := by
  have inside : (decodeInteger limits).Reads (sign :: (Bytes.ofNat 4 magnitude.length ++ magnitude))
      (signed sign magnitude) := by
    show Reads _ ([sign] ++ _) _
    refine (reads_byte sign).bind ?_
    rw [if_neg (UInt8.not_lt.mpr known)]
    refine Reads.map ((reads_count small word).bind (reads_run magnitude)) ?_
    rw [ofSignAndMagnitude_eq_signed known]
    exact .pure _
  have whole : ∀ inner, (decodeWith limits inner).Reads (integerForm sign magnitude)
      (bigInt (signed sign magnitude)) := by
    intro inner
    refine (reads_word32 Tag.bignum.code).bind ?_
    rw [Tag.ofCode?_code]
    exact inside.map (.pure _)
  rw [decode]
  cases limits.maxDepth with
  | zero => exact whole none
  | succ levels => exact whole (some _)

/-- The tag comes first. -/
theorem tag_of_writes {limits : Limits} {value : Int} {bytes : Bytes}
    (written : (encode limits (bigInt value)).Writes bytes) :
    Bytes.ofNat 4 (bigInt value).tag.code.toNat <+: bytes := by
  rw [encode_bigInt, Encoder.word32, Encoder.writes_append] at written
  obtain ⟨front, back, code, -, rfl⟩ := written
  rw [Encoder.writes_raw.mp code]
  exact List.prefix_append _ back

/-- **Wide integers are written in one way and read in all.**  Behind the tag of its own an integer
is written as its sign and the only digits of its magnitude that are not padded.  Every sign and
magnitude, padded or empty, is read as the integer they stand for, whatever follows them.  An
integer is written behind this tag unless only an unsigned word holds it. -/
theorem integers_on_the_wire (limits : Limits) :
    (∀ value : Int, (bigInt value).tag = .bignum →
      ∃ magnitude : Bytes,
        (∀ digits : Bytes, digits.weighted = value.natAbs ∧ digits.Unpadded ↔ digits = magnitude) ∧
        (value = 0 → magnitude = []) ∧
        ∀ bytes, (encode limits (bigInt value)).Writes bytes ↔
          magnitude.length ≤ limits.maxStringLength ∧ magnitude.length < 4294967296 ∧
            bytes = integerForm (if value = 0 then 0 else if 0 < value then 1 else 2) magnitude) ∧
    (∀ (sign : UInt8) (magnitude rest : Bytes), sign ≤ 2 →
      magnitude.length ≤ limits.maxStringLength → magnitude.length < 4294967296 →
        decode limits (integerForm sign magnitude ++ rest) =
          .ok (bigInt (signed sign magnitude)) rest) ∧
    (∀ value : Int,
      ((bigInt value).tag = .bignum ↔
        (-9223372036854775808 ≤ value ∧ value < 9223372036854775808) ∨
          ¬ (0 ≤ value ∧ value < 18446744073709551616)) ∧
      ∀ bytes, (encode limits (bigInt value)).Writes bytes →
        Bytes.ofNat 4 (bigInt value).tag.code.toNat <+: bytes) := by
  refine ⟨fun value tagged => ⟨Bytes.shortest value.natAbs, ?_, ?_, ?_⟩, ?_, ?_⟩
  · exact fun digits => Bytes.weighted_unpadded_iff
  · rintro rfl
    exact Bytes.shortest_zero
  · intro bytes
    rw [← signCode_eq]
    exact writes_bigInt tagged
  · exact fun sign magnitude rest known small word => reads_integerForm known small word rest
  · exact fun value => ⟨tag_bignum_iff, fun bytes written => tag_of_writes written⟩

/-- A negative integer with thirteen digits, and zero read from a padded magnitude behind the sign
of negative integers. -/
theorem integers_on_the_wire_negative :
    (bigInt (-2 ^ 100)).tag = .bignum ∧
      (encode {} (bigInt (-2 ^ 100))).Writes
        (integerForm 2 (List.replicate 12 0 ++ [16])) ∧
      decode {} (integerForm 2 [0, 0] ++ [9]) = .ok (bigInt 0) [9] := by
  obtain ⟨writing, reading, -⟩ := integers_on_the_wire {}
  refine ⟨rfl, ?_, ?_⟩
  · obtain ⟨magnitude, unique, -, written⟩ := writing (-2 ^ 100) rfl
    have digits : List.replicate 12 0 ++ [16] = magnitude := by
      refine (unique _).mp ⟨?_, by decide⟩
      rw [Bytes.weighted_eq_toNat]
      decide
    subst digits
    exact (written _).mpr ⟨by decide, by decide, rfl⟩
  · have zero : signed 2 [0, 0] = 0 := by
      rw [signed, Bytes.weighted_eq_toNat]
      decide
    have read := reading 2 [0, 0] [9] (by decide) (by decide) (by decide)
    rwa [zero] at read

end Literal

end CompiledScript
