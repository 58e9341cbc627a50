import CompiledScript.Container.Header
import CompiledScript.Proofs.Literal.Alike

/-!
# Headers and their top blocks

The header that is made for a block names the format and repeats the counters of
the block.  A check of a header against a block finds nothing exactly if all
counters agree, and the counters of equal blocks agree, so a header passes the
check against whatever its block is read back as.
-/

set_option autoImplicit false

namespace CompiledScript

namespace Header

theorem wordCount_ok {what : String} {length : Nat} {word : UInt32}
    (counted : wordCount what length = .ok word) : word.toNat = length := by
  rw [wordCount] at counted
  split at counted
  · rename_i fits
    cases counted
    rw [UInt32.toNat_ofNat']
    omega
  · cases counted

/-- A header that is made for a block repeats what the block counts. -/
theorem forBlock_made {top : Block} {runtime : RuntimeVersion} {header : Header}
    (made : forBlock top runtime = .ok header) :
    ∃ exceptions literals auxiliaries,
      exceptions.toNat = top.exceptions.length ∧ literals.toNat = top.literals.length ∧
        auxiliaries.toNat = top.auxiliaries.length ∧
          header = {
            magic := containerMagic, format := formatVersion, runtime,
            codeLength := UInt64.ofNat top.code.length, commands := 0, exceptions, literals,
            auxiliaries, locals := top.localCount, maxStack := top.maxStack } := by
  simp only [forBlock, bind, Except.bind] at made
  split at made
  · cases made
  rename_i exceptions countedExceptions
  split at made
  · cases made
  rename_i literals countedLiterals
  split at made
  · cases made
  rename_i auxiliaries countedAuxiliaries
  split at made
  · cases made
  rename_i locals counted
  cases made
  refine ⟨exceptions, literals, auxiliaries, wordCount_ok countedExceptions,
    wordCount_ok countedLiterals, wordCount_ok countedAuxiliaries, ?_⟩
  rw [Block.localCount, counted]

/-- The header of a top block is one of the expected format. -/
theorem forBlock_ok {top : Block} {runtime : RuntimeVersion} {header : Header}
    (made : forBlock top runtime = .ok header) :
    header.magic = containerMagic ∧ header.format = formatVersion ∧ header.runtime = runtime := by
  obtain ⟨_, _, _, -, -, -, rfl⟩ := forBlock_made made
  exact ⟨rfl, rfl, rfl⟩

/-- The header that is made for a block agrees with it on every counter. -/
theorem counter_forBlock {top : Block} {runtime : RuntimeVersion} {header : Header}
    (made : forBlock top runtime = .ok header) (word : top.code.length < 4294967296)
    (counter : Counter) : counter.ofHeader header = counter.ofBlock top := by
  obtain ⟨_, _, _, exceptions, literals, auxiliaries, rfl⟩ := forBlock_made made
  cases counter with
  | codeLength =>
    show (UInt64.ofNat top.code.length).toNat = top.code.length
    rw [UInt64.toNat_ofNat']
    omega
  | literals => exact literals
  | auxiliaries => exact auxiliaries
  | exceptions => exact exceptions
  | locals | maxStack => rfl

/-- **A check finds nothing exactly if the header agrees with the block on every counter.** -/
theorem crossCheck_eq_nil_iff {header : Header} {top : Block} :
    header.crossCheck top = [] ↔
      ∀ counter : Counter, counter.ofHeader header = counter.ofBlock top := by
  have listed : ∀ counter : Counter, counter ∈ Counter.all := by
    intro counter
    cases counter with
    | codeLength | literals | auxiliaries | exceptions | locals | maxStack => decide
  rw [crossCheck, List.filterMap_eq_nil_iff]
  constructor
  · intro silent counter
    by_contra differs
    have found := silent counter (listed counter)
    rw [if_neg differs] at found
    cases found
  · intro agree counter _
    rw [if_pos (agree counter)]

end Header

/-- Blocks that correspond have the same counters. -/
theorem Counter.ofBlock_alike {related : Literal → Literal → Prop} {left right : Block}
    (alike : left.Alike related right) (counter : Counter) :
    counter.ofBlock left = counter.ofBlock right := by
  cases counter with
  | codeLength => exact congrArg List.length alike.code
  | literals => exact alike.literals.length_eq
  | auxiliaries => exact congrArg List.length alike.auxiliaries
  | exceptions => exact congrArg List.length alike.exceptions
  | locals => exact congrArg UInt32.toNat alike.localCount
  | maxStack => exact congrArg UInt32.toNat alike.maxStack

end CompiledScript
