import CompiledScript.Wire.Encoder
import Mathlib.Data.List.Forall2

/-!
# What an encoder writes

An encoder says for every sink what reaches it.  The theory of the format needs
only one case of this, a sink without a bound in which the writing succeeds, and
the relation between an encoder and the bytes it then writes is what the other
modules reason with.  It is a partial function, and each way of putting encoders
together has one law that says what the whole writes in terms of the parts.

What an encoder writes may also be written by another.  This is a relation between
encoders that is kept when they are put together part by part, and two encoders
that stand in it both ways write the same or nothing at all.
-/

set_option autoImplicit false

namespace CompiledScript

namespace Room

/-- Room is used up a piece at a time. -/
theorem after_after (room : Room) (first second : Nat) :
    (room.after first).after second = room.after (first + second) := by
  cases room with
  | none => rfl
  | some left => simp only [Room.after, Option.map_some, Nat.sub_add_eq]

end Room

namespace Encoder

/-- Nothing follows a failure. -/
theorem append_into_of_failed {first : Encoder} {room : Room} {front : Bytes}
    {error : FormatError} (failed : first.into room = ⟨front, some error⟩) (second : Encoder) :
    (first ++ second).into room = ⟨front, some error⟩ := by
  show (andThen first second).into room = _
  simp only [andThen, failed]

/-- The second part is written into the room that the first has left. -/
theorem append_into_of_written {first : Encoder} {room : Room} {front : Bytes}
    (written : first.into room = ⟨front, none⟩) (second : Encoder) :
    (first ++ second).into room =
      ⟨front ++ (second.into (room.after front.length)).bytes,
        (second.into (room.after front.length)).failure⟩ := by
  show (andThen first second).into room = _
  simp only [andThen, written]

/-- A sequence succeeds in a sink if its parts do, the second in the room that the first has
left. -/
theorem append_into_ok {first second : Encoder} {room : Room} {bytes : Bytes} :
    (first ++ second).into room = ⟨bytes, none⟩ ↔
      ∃ front back, first.into room = ⟨front, none⟩ ∧
        second.into (room.after front.length) = ⟨back, none⟩ ∧ bytes = front ++ back := by
  constructor
  · intro written
    rcases start : first.into room with ⟨front, _ | error⟩
    · rw [append_into_of_written start] at written
      obtain ⟨rfl, done⟩ := Written.mk.inj written
      refine ⟨front, (second.into (room.after front.length)).bytes, rfl, ?_, rfl⟩
      exact congrArg (Written.mk (second.into (room.after front.length)).bytes) done
    · rw [append_into_of_failed start] at written
      cases written
  · rintro ⟨front, back, one, other, rfl⟩
    rw [append_into_of_written one, other]

/-- How a sequence of encoders is grouped does not matter. -/
theorem append_assoc (first second third : Encoder) :
    first ++ second ++ third = first ++ (second ++ third) := by
  apply Encoder.ext
  funext room
  rcases start : first.into room with ⟨front, _ | error⟩
  · rw [append_into_of_written start]
    rcases next : second.into (room.after front.length) with ⟨middle, _ | error⟩
    · have joined : (first ++ second).into room = ⟨front ++ middle, none⟩ := by
        rw [append_into_of_written start, next]
      rw [append_into_of_written joined, append_into_of_written next, Room.after_after,
        List.length_append, List.append_assoc]
    · have joined : (first ++ second).into room = ⟨front ++ middle, some error⟩ := by
        rw [append_into_of_written start, next]
      rw [append_into_of_failed joined, append_into_of_failed next]
  · rw [append_into_of_failed start,
      append_into_of_failed (append_into_of_failed start second)]

/-- The encoder succeeds in a sink without a bound and writes these bytes. -/
def Writes (encoder : Encoder) (bytes : Bytes) : Prop := encoder.bytes? = .ok bytes

namespace Writes

theorem iff_into {encoder : Encoder} {bytes : Bytes} :
    encoder.Writes bytes ↔ encoder.into none = ⟨bytes, none⟩ := by
  simp only [Writes, Encoder.bytes?, Encoder.unbounded, Written.result]
  cases output : encoder.into none with
  | mk written failure =>
    cases failure with
    | none => simp
    | some error => simp

end Writes

/-! ## One law for each way of writing -/

@[simp] theorem writes_nothing {bytes : Bytes} : nothing.Writes bytes ↔ bytes = [] := by
  rw [Writes.iff_into]
  simp [nothing, eq_comm]

@[simp] theorem not_writes_fail {error : FormatError} {bytes : Bytes} :
    ¬ (fail error).Writes bytes := by
  rw [Writes.iff_into]
  simp [fail]

@[simp] theorem writes_raw {bytes written : Bytes} : (raw bytes).Writes written ↔ written = bytes := by
  rw [Writes.iff_into]
  simp [raw, eq_comm]

/-- A sequence writes what its parts write, one after the other. -/
theorem writes_append {first second : Encoder} {bytes : Bytes} :
    (first ++ second).Writes bytes ↔
      ∃ front back, first.Writes front ∧ second.Writes back ∧ bytes = front ++ back := by
  simp only [Writes.iff_into]
  exact append_into_ok

theorem writes_each {α : Type} {items : List α} {encode : α → Encoder} {bytes : Bytes} :
    (each items encode).Writes bytes ↔
      ∃ pieces, List.Forall₂ (fun item piece => (encode item).Writes piece) items pieces ∧
        bytes = pieces.flatten := by
  induction items generalizing bytes with
  | nil =>
    rw [each, writes_nothing]
    constructor
    · rintro rfl
      exact ⟨[], .nil, rfl⟩
    · rintro ⟨pieces, written, rfl⟩
      obtain _ | _ := written
      rfl
  | cons item items ih =>
    rw [each, writes_append]
    constructor
    · rintro ⟨front, back, first, others, rfl⟩
      obtain ⟨pieces, written, rfl⟩ := ih.mp others
      exact ⟨front :: pieces, .cons first written, rfl⟩
    · rintro ⟨pieces, written, rfl⟩
      obtain _ | ⟨first, others⟩ := written
      exact ⟨_, _, first, ih.mpr ⟨_, others, rfl⟩, rfl⟩

/-- A length is written in four bytes if it is within its bound and fits in a word. -/
theorem writes_count {what : String} {length max : Nat} {bytes : Bytes} :
    (count what length max).Writes bytes ↔
      length ≤ max ∧ length < 4294967296 ∧ bytes = Bytes.ofNat 4 length := by
  by_cases fits : length ≤ max ∧ length < 4294967296
  · have same : (UInt32.ofNat length).toNat = length := by
      rw [UInt32.toNat_ofNat']
      omega
    simp [count, fits, word32, same]
  · rw [count, if_neg fits]
    constructor
    · intro written
      exact (not_writes_fail written).elim
    · rintro ⟨small, word, -⟩
      exact (fits ⟨small, word⟩).elim

/-! ## Writing what another writes -/

/-- Whatever the first encoder writes, the second writes as well. -/
def Entails (first second : Encoder) : Prop := ∀ bytes, first.Writes bytes → second.Writes bytes

namespace Entails

theorem refl (encoder : Encoder) : encoder.Entails encoder := fun _ written => written

theorem append {first second one other : Encoder} (start : first.Entails one)
    (finish : second.Entails other) : (first ++ second).Entails (one ++ other) := by
  intro bytes written
  obtain ⟨front, back, before, after, rfl⟩ := writes_append.mp written
  exact writes_append.mpr ⟨front, back, start front before, finish back after, rfl⟩

variable {α β : Type} {encode : α → Encoder} {recode : β → Encoder}

theorem each {items : List α} {others : List β}
    (entries : List.Forall₂ (fun item other => (encode item).Entails (recode other)) items others) :
    (Encoder.each items encode).Entails (Encoder.each others recode) := by
  induction entries with
  | nil => exact refl _
  | cons first _ ih => exact first.append ih

/-- A table follows another one entry by entry. -/
theorem table {what : String} {max : Nat} {items : List α} {others : List β}
    (entries : List.Forall₂ (fun item other => (encode item).Entails (recode other)) items others) :
    (Encoder.table what max items encode).Entails (Encoder.table what max others recode) := by
  rw [Encoder.table, Encoder.table, entries.length_eq]
  exact (refl _).append (each entries)

end Entails

end Encoder

end CompiledScript
