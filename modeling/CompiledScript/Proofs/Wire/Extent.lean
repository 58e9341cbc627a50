import CompiledScript.Proofs.Steps
import CompiledScript.Proofs.Wire.Composition

/-!
# How far a decoder looks

A decoder may give a value, it may refuse what it finds, or its input may give
out.  In the first two cases some bytes have been taken off the front of the
input, and these decide the outcome: whatever stands behind them, the decoder ends
in the same way and leaves it untouched, and if any of them is missing the input
gives out.

Single fields have this property, and it is kept when decoders are put one behind
the other.  If an input is cut inside what the first decoder takes, it gives out
there; if it is cut behind that, the first decoder does not see the cut and the
input gives out under the second.
-/

set_option autoImplicit false

namespace CompiledScript

namespace Decoder

variable {α β : Type}

/-- The end of a decoder with the given outcome, in front of the bytes that are left. -/
def ending (outcome : Except FormatError α) (rest : Bytes) : EStateM.Result FormatError Bytes α :=
  match outcome with
  | .ok value => .ok value rest
  | .error error => .error error rest

theorem ending_injective {first second : Except FormatError α} {rest left : Bytes}
    (same : ending first rest = ending second left) : first = second ∧ rest = left := by
  cases first with
  | ok value =>
    cases second with
    | ok other =>
      cases same
      exact ⟨rfl, rfl⟩
    | error error => cases same
  | error error =>
    cases second with
    | ok value => cases same
    | error other =>
      cases same
      exact ⟨rfl, rfl⟩

/-- The input gives out under the decoder. -/
def GivesOut (decoder : Decoder α) (input : Bytes) : Prop :=
  ∃ error rest, decoder input = .error error rest ∧ error.isTransfer = true

/-- A run of bytes decides an outcome: nothing behind it is looked at, and nothing of it can be
missing. -/
structure DecidedBy (decoder : Decoder α) (front : Bytes) (outcome : Except FormatError α) :
    Prop where
  settled : ∀ rest, decoder (front ++ rest) = ending outcome rest
  needed : ∀ count < front.length, decoder.GivesOut (front.take count)

/-- Unless its input gives out, the decoder is decided by the bytes that it takes. -/
def Decided (decoder : Decoder α) : Prop :=
  ∀ input, decoder.GivesOut input ∨
    ∃ front rest outcome, input = front ++ rest ∧ decoder.DecidedBy front outcome

/-! ## Decoders one behind the other -/

/-- What has given out under the first decoder gives out under the sequence. -/
theorem GivesOut.bind {first : Decoder α} {input : Bytes} (short : first.GivesOut input)
    (next : α → Decoder β) : (first >>= next).GivesOut input := by
  obtain ⟨error, rest, failed, transfer⟩ := short
  refine ⟨error, rest, ?_, transfer⟩
  show EStateM.bind first next input = _
  rw [EStateM.bind, failed]

/-- What has given out under the second decoder gives out under the sequence. -/
theorem GivesOut.after {first : Decoder α} {next : α → Decoder β} {front back : Bytes} {value : α}
    (start : first.DecidedBy front (.ok value)) (short : (next value).GivesOut back) :
    (first >>= next).GivesOut (front ++ back) := by
  obtain ⟨error, rest, failed, transfer⟩ := short
  exact ⟨error, rest, (Steps.bind_ok (start.settled back)).trans failed, transfer⟩

/-- A refusal by the first decoder is the outcome of the sequence. -/
theorem DecidedBy.refused {first : Decoder α} {front : Bytes} {error : FormatError}
    (start : first.DecidedBy front (.error error)) (next : α → Decoder β) :
    (first >>= next).DecidedBy front (.error error) := by
  constructor
  · intro rest
    show EStateM.bind first next _ = _
    rw [EStateM.bind, start.settled]
    rfl
  · intro count within
    exact (start.needed count within).bind next

/-- The bytes that decide a sequence are those that decide its parts. -/
theorem DecidedBy.bind {first : Decoder α} {next : α → Decoder β} {front back : Bytes} {value : α}
    {outcome : Except FormatError β} (start : first.DecidedBy front (.ok value))
    (finish : (next value).DecidedBy back outcome) :
    (first >>= next).DecidedBy (front ++ back) outcome := by
  constructor
  · intro rest
    rw [List.append_assoc]
    exact (Steps.bind_ok (start.settled _)).trans (finish.settled rest)
  · intro count within
    rw [List.length_append] at within
    -- The cut is either inside what the first decoder takes or behind it.
    rcases Nat.lt_or_ge count front.length with inside | behind
    · rw [List.take_append_of_le_length (Nat.le_of_lt inside)]
      exact (start.needed count inside).bind next
    · rw [List.take_append, List.take_of_length_le behind]
      exact (finish.needed (count - front.length) (by omega)).after start

namespace Decided

theorem bind {first : Decoder α} {next : α → Decoder β} (start : first.Decided)
    (finish : ∀ value, (next value).Decided) : (first >>= next).Decided := by
  intro input
  rcases start input with short | ⟨front, rest, outcome, rfl, decided⟩
  · exact .inl (short.bind next)
  cases outcome with
  | error error => exact .inr ⟨front, rest, .error error, rfl, decided.refused next⟩
  | ok value =>
    rcases finish value rest with short | ⟨back, left, outcome, rfl, further⟩
    · exact .inl (short.after decided)
    · exact .inr ⟨front ++ back, left, outcome, (List.append_assoc ..).symm, decided.bind further⟩

/-- An outcome for which nothing is read. -/
theorem immediate {decoder : Decoder α} (outcome : Except FormatError α)
    (settled : ∀ input, decoder input = ending outcome input) : decoder.Decided := by
  intro input
  refine .inr ⟨[], input, outcome, rfl, settled, fun count within => ?_⟩
  exact absurd within (Nat.not_lt_zero count)

theorem pure (value : α) : Decided (Pure.pure value) :=
  immediate (.ok value) fun _ => rfl

theorem throw (error : FormatError) : Decided (throw error : Decoder α) :=
  immediate (.error error) fun _ => rfl

end Decided

/-! ## Fields -/

/-- A decoder that takes a fixed number of bytes, whatever they are. -/
theorem decided_width {decoder : Decoder α} (width : Nat) (value : Bytes → α) (error : FormatError)
    (read : ∀ front rest : Bytes, front.length = width →
      decoder (front ++ rest) = .ok (value front) rest)
    (short : ∀ input : Bytes, input.length < width → decoder input = .error error [])
    (transfer : error.isTransfer = true) : decoder.Decided := by
  intro input
  rcases Nat.lt_or_ge input.length width with missing | enough
  · exact .inl ⟨error, [], short input missing, transfer⟩
  · have whole : (input.take width).length = width := List.length_take_of_le enough
    refine .inr ⟨input.take width, input.drop width, .ok (value (input.take width)),
      (List.take_append_drop width input).symm, fun rest => read _ rest whole, ?_⟩
    intro count within
    have missing : ((input.take width).take count).length < width := by
      rw [List.length_take]
      omega
    exact ⟨error, [], short _ missing, transfer⟩

theorem decided_digits (width : Nat) : (digits width).Decided := by
  refine decided_width width Bytes.toNat .fieldCutShort ?_ ?_ rfl
  · rintro front rest rfl
    simp only [digits, Bytes.split?_append]
  · intro input missing
    simp only [digits, Bytes.split?_of_lt missing]

theorem decided_run (length : Nat) : (run length).Decided := by
  refine decided_width length id .runCutShort ?_ ?_ rfl
  · rintro front rest rfl
    simp only [run, Bytes.split?_append, id]
  · intro input missing
    simp only [run, Bytes.split?_of_lt missing]

/-- To be decided is compositional: the bytes that decide a sequence are those that decide its
parts. -/
theorem compositional_decided : Compositional @Decided where
  pure := .pure
  refuse _ := .throw _
  digits := decided_digits
  run := decided_run
  bind := .bind

/-! ## What is taken -/

/-- A decoder that has ended other than by its input giving out was decided by what it has taken. -/
theorem Decided.of_ending {decoder : Decoder α} (decided : decoder.Decided) {input rest : Bytes}
    {outcome : Except FormatError α} (ended : decoder input = ending outcome rest)
    (settled : ∀ error, outcome = .error error → error.isTransfer = false) :
    ∃ front, input = front ++ rest ∧ decoder.DecidedBy front outcome := by
  rcases decided input with ⟨error, left, failed, transfer⟩ | ⟨front, left, other, whole, taken⟩
  · rw [failed] at ended
    have refused : ending (.error error) left = ending outcome rest := ended
    rw [settled error (ending_injective refused).1.symm] at transfer
    cases transfer
  · have again := taken.settled left
    rw [← whole, ended] at again
    obtain ⟨rfl, rfl⟩ := ending_injective again
    exact ⟨front, whole, taken⟩

end Decoder

end CompiledScript
