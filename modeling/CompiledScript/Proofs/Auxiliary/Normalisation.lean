import CompiledScript.Auxiliary.Codec
import CompiledScript.ExceptionRange
import CompiledScript.Proofs.Wire.Normalisation

/-!
# Normalising auxiliary records and exception ranges

Jump tables may be read with their keys in any order, and they are written in key
order.  Putting an entry into a table moves the later entries and their shares
along, so the entries of the table keep the bytes that were taken for them.

The other records have one form each, apart from the high bits in the kind of a
range, which are not kept.
-/

set_option autoImplicit false

namespace CompiledScript

open Decoder

/-! ## Jump tables in any order -/

/-- The entries after an insertion share what was taken for the earlier ones and for the new one. -/
theorem JumpTable.insertEntry_apportioned {κ : Type} [JumpKey κ] {fits : κ × Int32 → Nat → Prop}
    {key : κ} {offset : Int32} {entries : List (κ × Int32)} {share total : Nat}
    (new : fits (key, offset) share) (shared : Apportioned fits entries total) :
    Apportioned fits (insertEntry key offset entries) (share + total) := by
  induction entries generalizing total with
  | nil => exact shared.cons new
  | cons first rest ih =>
    rw [insertEntry]
    split
    · exact shared.cons new
    · obtain ⟨own, others, fitsFirst, sharedRest, sum⟩ := shared.of_cons
      split
      · exact ((ih sharedRest).cons fitsFirst).mono (by omega)
      · exact (sharedRest.cons new).mono (by omega)

theorem JumpTable.length_insertEntry_le {κ : Type} [JumpKey κ] (key : κ) (offset : Int32)
    (entries : List (κ × Int32)) :
    (insertEntry key offset entries).length ≤ entries.length + 1 := by
  induction entries with
  | nil => exact Nat.le_refl 1
  | cons first rest ih =>
    rw [insertEntry]
    split
    · exact Nat.le_refl _
    · split
      · exact Nat.succ_le_succ ih
      · exact Nat.le_succ _

namespace Auxiliary

section Jumps

variable {κ : Type} [JumpKey κ] [DecidableEq κ] {encodeKey : κ → Encoder} {decodeKey : Decoder κ}
  {keyText : κ → String}

/-- An entry of a jump table as it is written. -/
def encodeEntry (encodeKey : κ → Encoder) (entry : κ × Int32) : Encoder :=
  encodeKey entry.1 ++ Encoder.word32 entry.2.toUInt32

/-- The entries of a table that is being read share the bytes that were taken so far. -/
theorem normalises_entries
    (yieldsKey : decodeKey.Yields fun key taken => (encodeKey key).WritesWithin taken)
    (count : Nat) {read : JumpTable κ} {before : Nat}
    (shared : Apportioned (fun entry => (encodeEntry encodeKey entry).WritesWithin) read.entries
      before) :
    (decodeEntries decodeKey keyText count read).Yields fun table taken =>
      table.entries.length ≤ read.entries.length + count ∧
        Apportioned (fun entry => (encodeEntry encodeKey entry).WritesWithin) table.entries
          (before + taken) := by
  induction count generalizing read before with
  | zero => exact .pure ⟨Nat.le_refl _, shared⟩
  | succ count ih =>
    refine yieldsKey.bind fun key keyTaken fitsKey => ?_
    refine yields_word32.bind fun offset offsetTaken width => ?_
    split
    · exact .throw
    have new :
        (encodeEntry encodeKey (key, offset.toInt32)).WritesWithin (keyTaken + offsetTaken) :=
      width ▸ fitsKey.append (Encoder.within_word32 _)
    refine (ih (JumpTable.insertEntry_apportioned new shared)).weaken fun table taken grown => ?_
    obtain ⟨length, sharedAll⟩ := grown
    have longer : (read.insert key offset.toInt32).entries.length ≤ read.entries.length + 1 :=
      JumpTable.length_insertEntry_le key offset.toInt32 read.entries
    exact ⟨by omega, sharedAll.mono (by omega)⟩

theorem normalises_jumps {limits : Limits}
    (yieldsKey : decodeKey.Yields fun key taken => (encodeKey key).WritesWithin taken) :
    (decodeJumps limits decodeKey keyText).Yields fun table taken =>
      (encodeJumps limits encodeKey table).WritesWithin taken := by
  refine (yields_count _ _).bind fun count taken counted => ?_
  obtain ⟨rfl, small, word⟩ := counted
  refine (normalises_entries yieldsKey count (.nil 0)).weaken fun table taken read => ?_
  obtain ⟨length, shared⟩ := read
  have fewer : table.entries.length ≤ count := by
    rwa [show (JumpTable.empty : JumpTable κ).entries.length = 0 from rfl, Nat.zero_add] at length
  rw [Nat.zero_add] at shared
  exact Encoder.within_table (Nat.le_trans fewer small) (Nat.lt_of_le_of_lt fewer word) shared

end Jumps

/-! ## Lists of slots and loops -/

theorem normalises_slots (limits : Limits) (what : String) :
    (decodeSlots limits what).Yields fun slots taken =>
      (encodeSlots limits what slots).WritesWithin taken := by
  have slot : word32.Normalises Encoder.word32 fun _ => True :=
    yields_word32.weaken fun value taken width => ⟨trivial, width ▸ Encoder.within_word32 value⟩
  exact (slot.table what _).weaken fun slots taken holds => holds.2

/-- The two counts of a loop agree, so writing the number of its lists twice takes no more. -/
theorem normalises_loop (limits : Limits) (layout : ForeachLayout) :
    (decodeLoop limits layout).Yields fun loop taken =>
      loop.layout = layout ∧ (encodeLoop limits loop).WritesWithin taken := by
  refine (yields_count _ _).bind fun count taken counted => ?_
  obtain ⟨rfl, small, word⟩ := counted
  refine yields_word32.bind fun counter taken counterWidth => ?_
  refine yields_word32.bind fun firstValue taken firstWidth => ?_
  refine yields_word32.bind fun second taken secondWidth => ?_
  split
  · exact .throw
  refine (yields_times (normalises_slots limits _) count).last fun lists total read => ?_
  obtain ⟨rfl, shared⟩ := read
  refine ⟨rfl, ?_⟩
  simp only [encodeLoop, Encoder.append_assoc, counterWidth, firstWidth, secondWidth]
  refine (Encoder.within_count small word).append ?_
  refine (Encoder.within_word32 _).append ((Encoder.within_word32 _).append ?_)
  exact Encoder.within_table small word shared

/-- **Every record that is read is written again within the bytes that were taken.** -/
theorem normalises_decode (limits : Limits) :
    (decode limits).Yields fun record taken => (encode limits record).WritesWithin taken := by
  refine yields_word32.bind fun code tagTaken width => ?_
  subst width
  split
  · exact .throw
  · refine (normalises_jumps (yields_text limits _)).last fun table taken fits => ?_
    exact (Encoder.within_word32 _).append fits
  · have key : int64.Yields fun key taken => (Encoder.int64 key).WritesWithin taken :=
      yields_int64.weaken fun value taken width => width ▸ Encoder.within_int64 value
    refine (normalises_jumps key).last fun table taken fits => ?_
    exact (Encoder.within_word32 _).append fits
  · refine (normalises_slots limits _).last fun slots taken fits => ?_
    exact (Encoder.within_word32 _).append fits
  · refine (normalises_loop limits .legacy).last fun loop taken fits => ?_
    exact (Encoder.within_word32 _).append fits.2
  · refine (normalises_loop limits .current).last fun loop taken fits => ?_
    exact (Encoder.within_word32 _).append fits.2

end Auxiliary

/-! ## Exception ranges -/

/-- **Every range that is read is written again within the bytes that were taken.** -/
theorem ExceptionRange.normalises_decode :
    decode.Yields fun range taken => range.encode.WritesWithin taken := by
  refine yields_word32.bind fun word taken kindWidth => ?_
  simp only
  split
  · exact .throw
  refine yields_word32.bind fun level taken levelWidth => ?_
  refine yields_word32.bind fun offset taken offsetWidth => ?_
  refine yields_word32.bind fun length taken lengthWidth => ?_
  refine yields_word32.bind fun continueTarget taken continueWidth => ?_
  refine yields_word32.bind fun breakTarget taken breakWidth => ?_
  refine yields_word32.last fun catchTarget taken catchWidth => ?_
  simp only [encode, Encoder.append_assoc, kindWidth, levelWidth, offsetWidth, lengthWidth,
    continueWidth, breakWidth, catchWidth]
  refine (Encoder.within_word32 _).append ((Encoder.within_word32 _).append ?_)
  refine (Encoder.within_word32 _).append ((Encoder.within_word32 _).append ?_)
  refine (Encoder.within_word32 _).append ((Encoder.within_word32 _).append ?_)
  exact Encoder.within_word32 _

end CompiledScript
