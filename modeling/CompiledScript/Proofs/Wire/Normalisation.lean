import CompiledScript.Proofs.Pairing
import CompiledScript.Proofs.Steps
import CompiledScript.Proofs.Wire.Output
import CompiledScript.Wire.Decoder
import Mathlib.Algebra.GroupWithZero.Nat

/-!
# Writing again what was read

A decoder accepts more than an encoder writes, and what it gives for such an input
is written in another way.  This module counts bytes: of a decoder it says which
values it gives for how many bytes taken, and of an encoder that it succeeds
within a number of bytes.  A decoder whose values are written within the bytes
that were taken for them loses nothing and never grows.

Counts are kept apart from contents on purpose.  A repeated key of a map is put
in the place of an earlier one, and entries are put into another order, so the
pieces that are written do not stand where they were read.  What survives is that
every piece has a share of the bytes that were taken, and that the shares add up.
-/

set_option autoImplicit false

namespace CompiledScript

/-! ## Shares -/

/-- The items have shares of a total, each one that fits its item. -/
def Apportioned {α : Type} (fits : α → Nat → Prop) (items : List α) (total : Nat) : Prop :=
  ∃ shares, List.Forall₂ fits items shares ∧ shares.sum ≤ total

namespace Apportioned

variable {α β : Type} {fits : α → Nat → Prop}

theorem nil (total : Nat) : Apportioned fits [] total := ⟨[], .nil, Nat.zero_le total⟩

theorem cons {item : α} {items : List α} {share total : Nat} (first : fits item share)
    (others : Apportioned fits items total) : Apportioned fits (item :: items) (share + total) := by
  obtain ⟨shares, each, sum⟩ := others
  refine ⟨share :: shares, .cons first each, ?_⟩
  rw [List.sum_cons]
  omega

/-- The first of the shares, and what is left of the total for the others. -/
theorem of_cons {item : α} {items : List α} {total : Nat}
    (apportioned : Apportioned fits (item :: items) total) :
    ∃ share others, fits item share ∧ Apportioned fits items others ∧ share + others ≤ total := by
  obtain ⟨_, each, sum⟩ := apportioned
  obtain _ | @⟨_, share, _, shares, first, rest⟩ := each
  rw [List.sum_cons] at sum
  exact ⟨share, shares.sum, first, ⟨shares, rest, Nat.le_refl _⟩, sum⟩

theorem mono {items : List α} {total more : Nat} (apportioned : Apportioned fits items total)
    (enough : total ≤ more) : Apportioned fits items more := by
  obtain ⟨shares, each, sum⟩ := apportioned
  exact ⟨shares, each, Nat.le_trans sum enough⟩

/-- Every item has a share that fits it. -/
theorem share {items : List α} {total : Nat} (apportioned : Apportioned fits items total)
    {item : α} (found : item ∈ items) : ∃ share, fits item share := by
  obtain ⟨shares, each, -⟩ := apportioned
  obtain ⟨share, -, fits⟩ := Pairing.partner each found
  exact ⟨share, fits⟩

/-- Shares go along with a rearrangement. -/
theorem perm {items arranged : List α} {total : Nat} (apportioned : Apportioned fits items total)
    (order : arranged.Perm items) : Apportioned fits arranged total := by
  obtain ⟨shares, each, sum⟩ := apportioned
  obtain ⟨moved, eachMoved, same⟩ := Pairing.perm_right order each
  refine ⟨moved, eachMoved, ?_⟩
  rwa [same.sum_nat]

theorem imp {other : α → Nat → Prop} {items : List α} {total : Nat}
    (apportioned : Apportioned fits items total)
    (implied : ∀ item share, fits item share → other item share) :
    Apportioned other items total := by
  obtain ⟨shares, each, sum⟩ := apportioned
  exact ⟨shares, each.imp implied, sum⟩

end Apportioned

/-! ## Writing within a number of bytes -/

namespace Encoder

/-- The encoder succeeds in a sink without a bound and writes at most `most` bytes. -/
def WritesWithin (encoder : Encoder) (most : Nat) : Prop :=
  ∃ bytes, encoder.Writes bytes ∧ bytes.length ≤ most

namespace WritesWithin

theorem mono {encoder : Encoder} {most more : Nat} (within : encoder.WritesWithin most)
    (enough : most ≤ more) : encoder.WritesWithin more := by
  obtain ⟨bytes, written, length⟩ := within
  exact ⟨bytes, written, Nat.le_trans length enough⟩

theorem append {first second : Encoder} {most more : Nat} (start : first.WritesWithin most)
    (finish : second.WritesWithin more) : (first ++ second).WritesWithin (most + more) := by
  obtain ⟨front, one, frontLength⟩ := start
  obtain ⟨back, other, backLength⟩ := finish
  refine ⟨front ++ back, writes_append.mpr ⟨front, back, one, other, rfl⟩, ?_⟩
  rw [List.length_append]
  exact Nat.add_le_add frontLength backLength

end WritesWithin

theorem within_nothing : nothing.WritesWithin 0 :=
  ⟨[], writes_nothing.mpr rfl, Nat.le_refl 0⟩

theorem within_raw (bytes : Bytes) : (raw bytes).WritesWithin bytes.length :=
  ⟨bytes, writes_raw.mpr rfl, Nat.le_refl _⟩

theorem within_byte (value : UInt8) : (byte value).WritesWithin 1 := within_raw [value]

theorem within_boolean (value : Bool) : (boolean value).WritesWithin 1 := within_byte _

theorem within_word32 (value : UInt32) : (word32 value).WritesWithin 4 :=
  ⟨_, writes_raw.mpr rfl, Nat.le_of_eq (Bytes.length_ofNat _ _)⟩

theorem within_word64 (value : UInt64) : (word64 value).WritesWithin 8 :=
  ⟨_, writes_raw.mpr rfl, Nat.le_of_eq (Bytes.length_ofNat _ _)⟩

theorem within_int64 (value : Int64) : (int64 value).WritesWithin 8 := within_word64 _

theorem within_count {what : String} {length max : Nat} (small : length ≤ max)
    (word : length < 4294967296) : (count what length max).WritesWithin 4 :=
  ⟨_, writes_count.mpr ⟨small, word, rfl⟩, Nat.le_of_eq (Bytes.length_ofNat _ _)⟩

theorem within_bytes {limits : Limits} {what : String} {value : Bytes}
    (small : value.length ≤ limits.maxStringLength) (word : value.length < 4294967296) :
    (bytes limits what value).WritesWithin (4 + value.length) :=
  (within_count small word).append (within_raw value)

section Tables

variable {α : Type} {encode : α → Encoder} {items : List α} {total : Nat}

theorem within_each (shared : Apportioned (fun item => (encode item).WritesWithin) items total) :
    (each items encode).WritesWithin total := by
  induction items generalizing total with
  | nil => exact within_nothing.mono (Nat.zero_le total)
  | cons item items ih =>
    obtain ⟨share, others, first, rest, sum⟩ := shared.of_cons
    exact (first.append (ih rest)).mono sum

theorem within_table {what : String} {max : Nat} (small : items.length ≤ max)
    (word : items.length < 4294967296)
    (shared : Apportioned (fun item => (encode item).WritesWithin) items total) :
    (table what max items encode).WritesWithin (4 + total) :=
  (within_count small word).append (within_each shared)

end Tables

end Encoder

/-! ## Values and the bytes taken for them -/

namespace Decoder

variable {α β : Type}

/-- Whenever the decoder gives a value, the value and the number of bytes taken for it have the
property. -/
def Yields (decoder : Decoder α) (property : α → Nat → Prop) : Prop :=
  ∀ input value rest, decoder input = .ok value rest →
    ∃ taken, input.length = taken + rest.length ∧ property value taken

namespace Yields

theorem pure {value : α} {property : α → Nat → Prop} (holds : property value 0) :
    Yields (Pure.pure value) property := by
  intro input back rest read
  cases read
  exact ⟨0, (Nat.zero_add _).symm, holds⟩

theorem throw {error : FormatError} {property : α → Nat → Prop} :
    Yields (throw error) property := by
  rintro input value rest ⟨⟩

theorem throw_bind {error : FormatError} {next : α → Decoder β} {property : β → Nat → Prop} :
    Yields ((MonadExcept.throw error : Decoder α) >>= next) property := by
  rintro input value rest ⟨⟩

variable {decoder : Decoder α} {property : α → Nat → Prop}

/-- What a sequence takes is what its parts take together. -/
theorem bind {next : α → Decoder β} {result : β → Nat → Prop} (start : decoder.Yields property)
    (finish : ∀ value taken, property value taken →
      (next value).Yields fun back further => result back (taken + further)) :
    (decoder >>= next).Yields result := by
  intro input back rest read
  obtain ⟨value, between, first, second⟩ := Steps.of_bind read
  obtain ⟨taken, length, holds⟩ := start _ _ _ first
  obtain ⟨further, left, done⟩ := finish value taken holds _ _ _ second
  exact ⟨taken + further, by omega, done⟩

/-- What is done with a value in the end takes no bytes. -/
theorem last {next : α → β} {result : β → Nat → Prop} (start : decoder.Yields property)
    (finish : ∀ value taken, property value taken → result (next value) taken) :
    (do return next (← decoder)).Yields result :=
  start.bind fun value taken holds => pure (finish value taken holds)

theorem weaken {weaker : α → Nat → Prop} (yields : decoder.Yields property)
    (implied : ∀ value taken, property value taken → weaker value taken) :
    decoder.Yields weaker := by
  intro input value rest read
  obtain ⟨taken, length, holds⟩ := yields _ _ _ read
  exact ⟨taken, length, implied value taken holds⟩

end Yields

/-! ### Fields -/

theorem yields_digits (width : Nat) : (digits width).Yields fun _ taken => taken = width := by
  intro input value rest read
  rcases Nat.lt_or_ge input.length width with missing | enough
  · simp only [digits, Bytes.split?_of_lt missing] at read
    cases read
  · simp only [digits, Bytes.split?_of_le enough] at read
    cases read
    exact ⟨width, by rw [List.length_drop]; omega, rfl⟩

theorem yields_run (length : Nat) :
    (run length).Yields fun value taken => value.length = length ∧ taken = length := by
  intro input value rest read
  rcases Nat.lt_or_ge input.length length with missing | enough
  · simp only [run, Bytes.split?_of_lt missing] at read
    cases read
  · simp only [run, Bytes.split?_of_le enough] at read
    cases read
    exact ⟨length, by rw [List.length_drop]; omega, List.length_take_of_le enough, rfl⟩

theorem yields_byte : byte.Yields fun _ taken => taken = 1 :=
  (yields_digits 1).last fun _ _ width => width

theorem yields_word32 : word32.Yields fun _ taken => taken = 4 :=
  (yields_digits 4).last fun _ _ width => width

theorem yields_word64 : word64.Yields fun _ taken => taken = 8 :=
  (yields_digits 8).last fun _ _ width => width

theorem yields_int64 : int64.Yields fun _ taken => taken = 8 :=
  yields_word64.last fun _ _ width => width

theorem yields_boolean : boolean.Yields fun _ taken => taken = 1 := by
  refine yields_byte.bind fun value taken width => ?_
  split
  · exact .pure width
  · exact .pure width
  · exact .throw

/-- A length that was accepted can be written again. -/
theorem yields_count (what : String) (max : Nat) :
    (count what max).Yields fun length taken =>
      taken = 4 ∧ length ≤ max ∧ length < 4294967296 := by
  refine yields_word32.bind fun length taken width => ?_
  simp only
  split
  · exact .throw
  · rename_i small
    exact .pure ⟨width, Nat.not_lt.mp small, length.toNat_lt⟩

theorem yields_bytes (limits : Limits) (what : String) :
    (bytes limits what).Yields fun value taken =>
      taken = 4 + value.length ∧ value.length ≤ limits.maxStringLength ∧
        value.length < 4294967296 := by
  refine (yields_count what _).bind fun length taken counted => ?_
  obtain ⟨rfl, small, word⟩ := counted
  refine (yields_run length).weaken fun value taken whole => ?_
  obtain ⟨rfl, rfl⟩ := whole
  exact ⟨rfl, small, word⟩

theorem yields_text (limits : Limits) (what : String) :
    (text limits what).Yields fun value taken =>
      (Encoder.text limits what value).WritesWithin taken := by
  refine (yields_bytes limits what).bind fun encoded taken whole => ?_
  obtain ⟨rfl, small, word⟩ := whole
  split
  · rename_i value read
    rw [← Bytes.ofText_of_text? read] at small word ⊢
    exact .pure (Encoder.within_bytes small word)
  · exact .throw

/-! ### Tables -/

/-- The items of a run are apportioned to what it takes. -/
theorem yields_times {item : Decoder α} {property : α → Nat → Prop}
    (yields : item.Yields property) (count : Nat) :
    (times count item).Yields fun values taken =>
      values.length = count ∧ Apportioned property values taken := by
  induction count with
  | zero => exact .pure ⟨rfl, .nil 0⟩
  | succ count ih =>
    rw [times_succ]
    refine yields.bind fun value share holds => ih.last fun values total others => ?_
    obtain ⟨rfl, shared⟩ := others
    exact ⟨rfl, shared.cons holds⟩

theorem yields_table {item : Decoder α} {property : α → Nat → Prop}
    (yields : item.Yields property) (what : String) (max : Nat) :
    (table what max item).Yields fun values taken =>
      ∃ total, taken = 4 + total ∧ values.length ≤ max ∧ values.length < 4294967296 ∧
        Apportioned property values total := by
  refine (yields_count what max).bind fun length taken counted => ?_
  obtain ⟨rfl, small, word⟩ := counted
  refine (yields_times yields length).weaken fun values total others => ?_
  obtain ⟨rfl, shared⟩ := others
  exact ⟨total, rfl, small, word, shared⟩

/-! ### Decoders and encoders -/

/-- Every value that the decoder gives is a sound one, and the encoder writes it within the bytes
that were taken for it. -/
def Normalises (decoder : Decoder α) (encode : α → Encoder) (sound : α → Prop) : Prop :=
  decoder.Yields fun value taken => sound value ∧ (encode value).WritesWithin taken

/-- The entries of a table that was read are sound, and the table is written within the bytes that
were taken for it. -/
theorem Normalises.table {item : Decoder α} {encode : α → Encoder} {sound : α → Prop}
    (normalises : item.Normalises encode sound) (what : String) (max : Nat) :
    (table what max item).Normalises (fun values => Encoder.table what max values encode)
      (fun values => ∀ value ∈ values, sound value) := by
  refine (yields_table normalises what max).weaken fun values taken others => ?_
  obtain ⟨total, rfl, small, word, shared⟩ := others
  constructor
  · intro value found
    obtain ⟨_, holds, -⟩ := shared.share found
    exact holds
  · exact Encoder.within_table small word (shared.imp fun _ _ holds => holds.2)

end Decoder

end CompiledScript
