import CompiledScript.Proofs.Wire.Output

/-!
# When writing succeeds

Into a sink without a bound an encoder fails for one reason only: a length or a
level of nesting that exceeds its bound.  Whether it succeeds can therefore be told
from the value, and each way of putting encoders together has one law for it.

Bounds are 32-bit words, as the lengths they bound are on the wire.  A length within
its bound then always fits where it is written.
-/

set_option autoImplicit false

namespace CompiledScript

/-- Every bound on a length is a 32-bit word. -/
structure Limits.InWords (limits : Limits) : Prop where
  maxStringLength : limits.maxStringLength < 4294967296
  maxCodeLength : limits.maxCodeLength < 4294967296
  maxLiterals : limits.maxLiterals < 4294967296
  maxAuxiliaries : limits.maxAuxiliaries < 4294967296
  maxExceptions : limits.maxExceptions < 4294967296
  maxElements : limits.maxElements < 4294967296

theorem Limits.inWords_default : ({} : Limits).InWords := by
  constructor <;> decide

/-- A text has as many bytes as its UTF-8 form. -/
theorem Bytes.length_ofText (text : String) : (Bytes.ofText text).length = text.utf8ByteSize := rfl

namespace Encoder

/-- The encoder succeeds in a sink without a bound. -/
def Succeeds (encoder : Encoder) : Prop := ∃ bytes, encoder.Writes bytes

@[simp] theorem succeeds_nothing : nothing.Succeeds := ⟨[], writes_nothing.mpr rfl⟩

@[simp] theorem not_succeeds_fail (error : FormatError) : ¬ (fail error).Succeeds := by
  rintro ⟨bytes, written⟩
  exact not_writes_fail written

@[simp] theorem succeeds_raw (bytes : Bytes) : (raw bytes).Succeeds := ⟨bytes, writes_raw.mpr rfl⟩

@[simp] theorem succeeds_byte (value : UInt8) : (byte value).Succeeds := succeeds_raw _

@[simp] theorem succeeds_word32 (value : UInt32) : (word32 value).Succeeds := succeeds_raw _

@[simp] theorem succeeds_word64 (value : UInt64) : (word64 value).Succeeds := succeeds_raw _

@[simp] theorem succeeds_int64 (value : Int64) : (int64 value).Succeeds := succeeds_word64 _

@[simp] theorem succeeds_boolean (value : Bool) : (boolean value).Succeeds := succeeds_byte _

/-- A sequence succeeds if both of its parts do. -/
@[simp] theorem succeeds_append {first second : Encoder} :
    (first ++ second).Succeeds ↔ first.Succeeds ∧ second.Succeeds := by
  constructor
  · rintro ⟨bytes, written⟩
    obtain ⟨front, back, one, other, -⟩ := writes_append.mp written
    exact ⟨⟨front, one⟩, ⟨back, other⟩⟩
  · rintro ⟨⟨front, one⟩, ⟨back, other⟩⟩
    exact ⟨front ++ back, writes_append.mpr ⟨front, back, one, other, rfl⟩⟩

theorem succeeds_each {α : Type} {items : List α} {encode : α → Encoder} :
    (each items encode).Succeeds ↔ ∀ item ∈ items, (encode item).Succeeds := by
  induction items with
  | nil => simp [each]
  | cons item items ih => simp [each, ih]

/-! ## Lengths within their bounds -/

theorem succeeds_count {max : Nat} (word : max < 4294967296) (what : String) (length : Nat) :
    (count what length max).Succeeds ↔ length ≤ max := by
  constructor
  · rintro ⟨bytes, written⟩
    exact (writes_count.mp written).1
  · intro small
    exact ⟨_, writes_count.mpr ⟨small, by omega, rfl⟩⟩

theorem succeeds_table {α : Type} {max : Nat} (word : max < 4294967296) (what : String)
    (items : List α) (encode : α → Encoder) :
    (table what max items encode).Succeeds ↔
      items.length ≤ max ∧ ∀ item ∈ items, (encode item).Succeeds := by
  rw [table, succeeds_append, succeeds_count word, succeeds_each]

variable {limits : Limits}

theorem succeeds_bytes (words : limits.InWords) (what : String) (value : Bytes) :
    (bytes limits what value).Succeeds ↔ value.length ≤ limits.maxStringLength := by
  rw [bytes, succeeds_append, succeeds_count words.maxStringLength]
  exact and_iff_left (succeeds_raw value)

theorem succeeds_text (words : limits.InWords) (what value : String) :
    (text limits what value).Succeeds ↔ value.utf8ByteSize ≤ limits.maxStringLength := by
  rw [text, succeeds_bytes words, Bytes.length_ofText]

end Encoder

end CompiledScript
