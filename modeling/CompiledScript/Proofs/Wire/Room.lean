import CompiledScript.Proofs.Wire.Output

/-!
# Writing into little room

A sink takes bytes until it is full.  An encoder that does not look at the room it
is given writes the same into every sink, as far as the sink goes: what reaches a
bounded sink is what reaches one without a bound, cut off where the room ends, and
the only failure that is added is that of the sink.

Encoders could look at the room, so this is a property of the ones there are.  Runs
of bytes have it, and it is kept when encoders are put one behind the other.
-/

set_option autoImplicit false

namespace CompiledScript

/-- What of an output reaches a sink that takes only so many bytes. -/
def Written.cut (written : Written) (left : Nat) : Written :=
  if written.bytes.length ≤ left then written else ⟨written.bytes.take left, some .sinkFull⟩

namespace Encoder

/-- What reaches a bounded sink is what reaches one without a bound, as far as the sink goes. -/
def Steady (encoder : Encoder) : Prop :=
  ∀ left, encoder.into (some left) = (encoder.into none).cut left

namespace Steady

/-- **What is written into a sink that was large enough is the whole output.** -/
theorem writes {encoder : Encoder} (steady : encoder.Steady) {room : Room} {bytes : Bytes}
    (written : encoder.into room = ⟨bytes, none⟩) : encoder.Writes bytes := by
  rw [Writes.iff_into]
  cases room with
  | none => exact written
  | some left =>
    rw [steady left, Written.cut] at written
    split at written
    · exact written
    · cases written

theorem append {first second : Encoder} (one : first.Steady) (other : second.Steady) :
    (first ++ second).Steady := by
  intro left
  rcases start : first.into none with ⟨front, _ | error⟩
  · have whole := append_into_of_written start second
    rcases finish : second.into none with ⟨back, failure⟩
    rw [show Room.after none front.length = none from rfl, finish] at whole
    rw [whole]
    by_cases fits : front.length ≤ left
    · have bounded : first.into (some left) = ⟨front, none⟩ := by
        rw [one, start, Written.cut, if_pos fits]
      rw [append_into_of_written bounded, show Room.after (some left) front.length =
        some (left - front.length) from rfl, other, finish, Written.cut, Written.cut]
      by_cases all : back.length ≤ left - front.length
      · rw [if_pos all, if_pos (by simp only [List.length_append]; omega)]
      · rw [if_neg all, if_neg (by simp only [List.length_append]; omega), List.take_append,
          List.take_of_length_le fits]
    · have bounded : first.into (some left) = ⟨front.take left, some .sinkFull⟩ := by
        rw [one, start, Written.cut, if_neg fits]
      rw [append_into_of_failed bounded, Written.cut,
        if_neg (by simp only [List.length_append]; omega),
        List.take_append_of_le_length (by omega)]
  · rw [append_into_of_failed start, Written.cut]
    by_cases fits : front.length ≤ left
    · have bounded : first.into (some left) = ⟨front, some error⟩ := by
        rw [one, start, Written.cut, if_pos fits]
      rw [append_into_of_failed bounded, if_pos fits]
    · have bounded : first.into (some left) = ⟨front.take left, some .sinkFull⟩ := by
        rw [one, start, Written.cut, if_neg fits]
      rw [append_into_of_failed bounded, if_neg fits]

end Steady

/-! ## Each way of writing -/

theorem steady_nothing : nothing.Steady := fun _ => rfl

theorem steady_fail (error : FormatError) : (fail error).Steady := fun _ => rfl

theorem steady_raw (bytes : Bytes) : (raw bytes).Steady := fun _ => rfl

theorem steady_byte (value : UInt8) : (byte value).Steady := steady_raw _

theorem steady_word16 (value : UInt16) : (word16 value).Steady := steady_raw _

theorem steady_word32 (value : UInt32) : (word32 value).Steady := steady_raw _

theorem steady_word64 (value : UInt64) : (word64 value).Steady := steady_raw _

theorem steady_int64 (value : Int64) : (int64 value).Steady := steady_word64 _

theorem steady_boolean (value : Bool) : (boolean value).Steady := steady_byte _

theorem steady_count (what : String) (length max : Nat) : (count what length max).Steady := by
  rw [count]
  split
  · exact steady_word32 _
  · exact steady_fail _

theorem steady_bytes (limits : Limits) (what : String) (value : Bytes) :
    (bytes limits what value).Steady :=
  (steady_count what _ _).append (steady_raw value)

theorem steady_text (limits : Limits) (what value : String) : (text limits what value).Steady :=
  steady_bytes limits what _

section Tables

variable {α : Type} {encode : α → Encoder}

theorem steady_each (steady : ∀ item, (encode item).Steady) (items : List α) :
    (each items encode).Steady := by
  induction items with
  | nil => exact steady_nothing
  | cons item items ih => exact (steady item).append ih

theorem steady_table (steady : ∀ item, (encode item).Steady) (what : String) (max : Nat)
    (items : List α) : (table what max items encode).Steady :=
  (steady_count what _ _).append (steady_each steady items)

end Tables

end Encoder

end CompiledScript
