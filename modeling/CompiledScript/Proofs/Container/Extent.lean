import CompiledScript.Container.WireKind
import CompiledScript.Proofs.Container.Composition
import CompiledScript.Proofs.Wire.Extent

/-!
# How far the decoders of containers look

The decoders of every kind of value are put together from single fields, and
between two fields they only branch on what they have read, so each of them is
decided by the bytes that it takes.  In particular every check is made right
behind the bytes it depends on: a length before what it announces, the depth of
nesting right behind a tag, the key of a jump table behind its offset, and the
runtime of a container right behind its header.

The main theorem reads the outcome off the bytes that were taken and says what
becomes of every input that is cut short of them.
-/

set_option autoImplicit false

namespace CompiledScript

open Decoder

/-- A runtime that may not load a container is refused right behind the header. -/
theorem Header.decided_decodeFor (running : RuntimeVersion) : (decodeFor running).Decided := by
  apply compositional_decided.header.bind
  intro header
  split
  · exact .pure _
  · exact .throw _

theorem Container.decided_decode (limits : Limits) (running : RuntimeVersion) :
    (decode limits running).Decided := by
  rw [decode_eq]
  exact (Header.decided_decodeFor running).bind (compositional_decided.sections limits)

/-! ## Every kind -/

namespace WireKind

theorem decided_decode (limits : Limits) (running : Option RuntimeVersion) (kind : WireKind) :
    (kind.decode limits running).Decided := by
  cases kind with
  | literal => exact compositional_decided.literal limits
  | auxiliary => exact compositional_decided.auxiliary limits
  | exceptionRange => exact compositional_decided.exceptionRange
  | block => exact compositional_decided.block limits
  | header =>
    cases running with
    | none => exact compositional_decided.header
    | some version => exact Header.decided_decodeFor version
  | procedure => exact compositional_decided.procedure limits
  | className => exact compositional_decided.className limits
  | classNames => exact compositional_decided.table (compositional_decided.className limits) _ _
  | method => exact compositional_decided.method limits
  | container => exact Container.decided_decode limits _

/-- **An outcome is decided by the bytes that were taken.**  A decoder that ends with a value or a
refusal leaves what stands behind the bytes it has taken, ends in the same way on every input that
starts with them, and finds each input that breaks off inside them cut short. -/
theorem decode_decided {limits : Limits} {running : Option RuntimeVersion} {kind : WireKind}
    {input rest : Bytes} {outcome : Except FormatError kind.Value}
    (ended : kind.decode limits running input = ending outcome rest)
    (settled : ∀ error, outcome = .error error → error.isTransfer = false) :
    let taken := input.length - rest.length
    rest = input.drop taken ∧
      (∀ other : Bytes, other.take taken = input.take taken →
        kind.decode limits running other = ending outcome (other.drop taken)) ∧
      ∀ count < taken, (kind.decode limits running).GivesOut (input.take count) := by
  obtain ⟨front, rfl, decided⟩ := (decided_decode limits running kind).of_ending ended settled
  have width : (front ++ rest).length - rest.length = front.length := by
    rw [List.length_append, Nat.add_sub_cancel]
  intro taken
  rw [show taken = front.length from width]
  refine ⟨List.drop_left.symm, fun other agrees => ?_, fun count within => ?_⟩
  · rw [List.take_left] at agrees
    have whole := List.take_append_drop front.length other
    rw [agrees] at whole
    have again := decided.settled (other.drop front.length)
    rwa [whole] at again
  · rw [List.take_append_of_le_length (Nat.le_of_lt within)]
    exact decided.needed count within

/-- A jump table in which the key 5 comes twice, and two bytes behind it. -/
def repeatedKey : Bytes :=
  [2, 0, 0, 0] ++ [2, 0, 0, 0] ++ ([5, 0, 0, 0, 0, 0, 0, 0] ++ [1, 0, 0, 0]) ++
    ([5, 0, 0, 0, 0, 0, 0, 0] ++ [2, 0, 0, 0]) ++ [9, 9]

/-- A key that comes twice is refused right behind its second offset, and no earlier. -/
theorem decode_decided_repeatedKey :
    auxiliary.decode {} none repeatedKey = .error (.duplicateJumpKey "5") [9, 9] ∧
      (∀ other : Bytes, other.take 32 = repeatedKey.take 32 →
        auxiliary.decode {} none other = .error (.duplicateJumpKey "5") (other.drop 32)) ∧
      ∀ count < 32, (auxiliary.decode {} none).GivesOut (repeatedKey.take count) := by
  have ended : auxiliary.decode {} none repeatedKey =
      ending (.error (.duplicateJumpKey "5")) [9, 9] := by
    rfl
  have settled : ∀ error, (.error (.duplicateJumpKey "5") : Except FormatError Auxiliary) =
      .error error → error.isTransfer = false := by
    rintro _ ⟨⟩
    rfl
  obtain ⟨-, agree, short⟩ := decode_decided ended settled
  exact ⟨ended, agree, short⟩

end WireKind

end CompiledScript
