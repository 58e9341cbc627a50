import CompiledScript.Proofs.Literal.Recovery
import Mathlib.Data.List.Basic
import Mathlib.Order.Bounds.Basic

/-!
# How many local slots auxiliary records refer to

Where a compiler leaves neither a count nor a table of its locals, the count is taken from
the auxiliary records: it is one more than the highest slot that any of them refers to.
Slots are words, but a loop over lists refers to consecutive ones of which only the first
is written down, and these may run past the last word.  The highest slot is therefore a
natural number, and the count is one more than that as far as words go.

Words tell the highest of some slots if the highest of them is that slot, or the greatest
word where that slot is not a word.  This is kept when words are put behind other words,
even if both have stopped at the greatest word and do not say any more whose slot is
higher.  The slots of a record are put together from their sorts in this way, and those of
a block from its records.

All sums stop at the greatest word, so what could leave the words are the two steps in
front of the sum for a loop.  Its number of lists becomes a word, and one is taken from
that.  A loop that has lists, and not more than a word counts, does not leave them there.
-/

set_option autoImplicit false

namespace CompiledScript

/-! ## Slots that are referred to -/

namespace Auxiliary

/-- A record refers to a slot, which need not be a word. -/
inductive RefersTo : Auxiliary → Nat → Prop where
  | updated {slots : List UInt32} {slot : UInt32} (listed : slot ∈ slots) :
      RefersTo (.dictUpdate slots) slot.toNat
  | assigned {loop : ForeachLoop} {targets : List UInt32} {slot : UInt32}
      (list : targets ∈ loop.lists) (listed : slot ∈ targets) :
      RefersTo (.foreach loop) slot.toNat
  | counter (loop : ForeachLoop) : RefersTo (.foreach loop) loop.counter.toNat
  /-- Each list is kept in one of the consecutive slots. -/
  | value {loop : ForeachLoop} {place : Nat} (inside : place < loop.lists.length) :
      RefersTo (.foreach loop) (loop.firstValue.toNat + place)

def isJumpTable : Auxiliary → Bool
  | textJumps _ | integerJumps _ => true
  | dictUpdate _ | foreach _ => false

/-- No step towards the last slot for the lists of a loop leaves the words. -/
structure StepsInWords (loop : ForeachLoop) : Prop where
  /-- The number of lists is not cut off. -/
  narrowed : (UInt32.ofNat loop.lists.length).toNat = loop.lists.length
  /-- One can be taken from it. -/
  lessened : BitVec.usubOverflow (UInt32.ofNat loop.lists.length).toBitVec 1 = false
  /-- What is left is how far the last slot comes behind the first. -/
  reach : (valueReach loop).toNat + 1 = loop.lists.length
  /-- The sum stops at the greatest word and does not start again at zero. -/
  added : (saturatingAdd loop.firstValue (valueReach loop)).toNat =
    min 4294967295 (loop.firstValue.toNat + (valueReach loop).toNat)

end Auxiliary

namespace Block

/-- Some record of the block refers to the slot. -/
def RefersTo (block : Block) (slot : Nat) : Prop :=
  ∃ record ∈ block.auxiliaries, record.RefersTo slot

def withoutJumpTables (block : Block) : Block :=
  { block with auxiliaries := block.auxiliaries.filter fun record => !record.isJumpTable }

end Block

/-! ## Words that tell the highest slot -/

instance lawfulOrderMaxWord : Std.LawfulOrderMax UInt32 where
  max_eq_or first second := by
    simp only [← UInt32.toNat_inj, UInt32.toNat_max]
    omega
  max_le_iff first second bound := by
    simp only [UInt32.le_iff_toNat_le, UInt32.toNat_max]
    omega

theorem max?_append {front back : List UInt32} {first second : UInt32}
    (inFront : front.max? = some first) (behind : back.max? = some second) :
    (front ++ back).max? = some (max first second) := by
  obtain ⟨firstListed, firstBound⟩ := List.max?_eq_some_iff.mp inFront
  obtain ⟨secondListed, secondBound⟩ := List.max?_eq_some_iff.mp behind
  apply List.max?_eq_some_iff.mpr
  constructor
  · rcases Std.MaxEqOr.max_eq_or first second with same | same
    · rw [same]
      exact List.mem_append_left back firstListed
    · rw [same]
      exact List.mem_append_right front secondListed
  · intro word listed
    rcases List.mem_append.mp listed with listed | listed
    · exact UInt32.le_trans (firstBound word listed) Std.left_le_max
    · exact UInt32.le_trans (secondBound word listed) Std.right_le_max

/-- The highest of some words is the highest of some slots as far as words go, and there are no
words if there are no slots. -/
inductive Tells : List UInt32 → Set Nat → Prop where
  | nothing : Tells [] ∅
  | highest {words : List UInt32} {slots : Set Nat} {word : UInt32} {slot : Nat}
      (top : words.max? = some word) (greatest : IsGreatest slots slot)
      (told : word.toNat = min 4294967295 slot) : Tells words slots

namespace Tells

theorem single (word : UInt32) : Tells [word] {word.toNat} := by
  have bound := word.toNat_lt
  exact highest List.max?_singleton isGreatest_singleton (by omega)

theorem append {front back : List UInt32} {first second : Set Nat}
    (inFront : Tells front first) (behind : Tells back second) :
    Tells (front ++ back) (first ∪ second) := by
  cases inFront with
  | nothing => rwa [List.nil_append, Set.empty_union]
  | highest top greatest told =>
    cases behind with
    | nothing =>
      rw [List.append_nil, Set.union_empty]
      exact highest top greatest told
    | highest topBehind greatestBehind toldBehind =>
      refine highest (max?_append top topBehind) (greatest.union greatestBehind) ?_
      rw [UInt32.toNat_max, told, toldBehind]
      omega

/-- The highest word tells as much as all of them. -/
theorem top {words : List UInt32} {slots : Set Nat} (tells : Tells words slots) :
    Tells words.max?.toList slots := by
  cases tells with
  | nothing => exact nothing
  | highest top greatest told =>
    rw [top]
    exact highest List.max?_singleton greatest told

/-- What words tell for each item they tell for all items. -/
theorem gather {α : Type} {words : α → List UInt32} {slots : α → Set Nat} {items : List α}
    (each : ∀ item ∈ items, Tells (words item) (slots item)) :
    Tells (items.flatMap words) {slot | ∃ item ∈ items, slot ∈ slots item} := by
  induction items with
  | nil =>
    have empty : {slot | ∃ item ∈ ([] : List α), slot ∈ slots item} = ∅ := by simp
    rw [empty]
    exact nothing
  | cons item items ih =>
    obtain ⟨here, later⟩ := List.forall_mem_cons.mp each
    have split : {slot | ∃ other ∈ item :: items, slot ∈ slots other} =
        slots item ∪ {slot | ∃ other ∈ items, slot ∈ slots other} := by
      ext slot
      simp
    rw [split]
    exact append here (ih later)

theorem words (words : List UInt32) : Tells words {slot | ∃ word ∈ words, word.toNat = slot} := by
  have each : ∀ word ∈ words, Tells [word] {slot | word.toNat = slot} := by
    intro word _
    have alone : {slot | word.toNat = slot} = {word.toNat} := by
      ext slot
      exact eq_comm
    rw [alone]
    exact single word
  have all := gather each
  rwa [List.flatMap_singleton'] at all

end Tells

/-! ## The highest slot of a record -/

namespace Auxiliary

theorem toNat_saturatingAdd (left right : UInt32) :
    (saturatingAdd left right).toNat = min 4294967295 (left.toNat + right.toNat) := by
  have leftBound := left.toNat_lt
  have rightBound := right.toNat_lt
  have exceeds : BitVec.uaddOverflow left.toBitVec right.toBitVec = true ↔
      4294967296 ≤ left.toNat + right.toNat := by
    simp [BitVec.uaddOverflow]
  rw [saturatingAdd]
  split
  · rename_i overflows
    have above := exceeds.mp overflows
    show 4294967295 = _
    omega
  · rename_i fits
    have below := mt exceeds.mpr fits
    rw [UInt32.toNat_add]
    omega

variable {loop : ForeachLoop}

theorem stepsInWords (nonempty : loop.lists ≠ []) (few : loop.lists.length ≤ 4294967295) :
    StepsInWords loop := by
  have positive := List.length_pos_iff.mpr nonempty
  have narrowed : (UInt32.ofNat loop.lists.length).toNat = loop.lists.length := by
    rw [UInt32.toNat_ofNat']
    omega
  have above : 1 ≤ UInt32.ofNat loop.lists.length := by
    rw [UInt32.le_iff_toNat_le, narrowed]
    exact positive
  refine ⟨narrowed, ?_, ?_, toNat_saturatingAdd _ _⟩
  · rw [BitVec.usubOverflow, decide_eq_false_iff_not, Nat.not_lt]
    exact UInt32.le_iff_toNat_le.mp above
  · rw [valueReach, UInt32.toNat_sub_of_le _ _ above, narrowed]
    show loop.lists.length - 1 + 1 = _
    omega

theorem tells_lastValue? (few : loop.lists.length ≤ 4294967295) :
    Tells (lastValue? loop).toList
      {slot | ∃ place < loop.lists.length, loop.firstValue.toNat + place = slot} := by
  rw [lastValue?]
  cases count : loop.lists.length with
  | zero =>
    have empty : {slot | ∃ place < 0, loop.firstValue.toNat + place = slot} = ∅ := by simp
    rw [empty]
    exact .nothing
  | succ reach =>
    have nonempty : loop.lists ≠ [] := List.ne_nil_of_length_eq_add_one count
    have steps := stepsInWords nonempty few
    have word := steps.reach
    have greatest : IsGreatest {slot | ∃ place < reach + 1, loop.firstValue.toNat + place = slot}
        (loop.firstValue.toNat + reach) := by
      refine ⟨⟨reach, by omega, rfl⟩, ?_⟩
      rintro _ ⟨place, inside, rfl⟩
      omega
    refine .highest List.max?_singleton greatest ?_
    rw [steps.added]
    omega

theorem refersTo_dictUpdate (slots : List UInt32) :
    {slot | (dictUpdate slots).RefersTo slot} = {slot | ∃ word ∈ slots, word.toNat = slot} := by
  ext slot
  constructor
  · rintro ⟨listed⟩
    exact ⟨_, listed, rfl⟩
  · rintro ⟨word, listed, rfl⟩
    exact .updated listed

theorem refersTo_foreach (loop : ForeachLoop) :
    {slot | (foreach loop).RefersTo slot} =
      {slot | ∃ word ∈ loop.lists.flatten, word.toNat = slot} ∪
        ({loop.counter.toNat} ∪
          {slot | ∃ place < loop.lists.length, loop.firstValue.toNat + place = slot}) := by
  ext slot
  constructor
  · intro refers
    cases refers with
    | assigned list listed => exact .inl ⟨_, List.mem_flatten.mpr ⟨_, list, listed⟩, rfl⟩
    | counter => exact .inr (.inl rfl)
    | value inside => exact .inr (.inr ⟨_, inside, rfl⟩)
  · rintro (⟨word, listed, rfl⟩ | rfl | ⟨place, inside, rfl⟩)
    · obtain ⟨targets, list, listed⟩ := List.mem_flatten.mp listed
      exact .assigned list listed
    · exact .counter loop
    · exact .value inside

theorem refersTo_jumpTable {record : Auxiliary} (jumps : record.isJumpTable = true) :
    {slot | record.RefersTo slot} = ∅ := by
  apply Set.eq_empty_iff_forall_notMem.mpr
  rintro slot refers
  cases refers <;> cases jumps

/-- The highest slot of a record is told if its loop has no more lists than a word counts. -/
theorem tells_highestLocal? (record : Auxiliary)
    (few : ∀ loop, record = foreach loop → loop.lists.length ≤ 4294967295) :
    Tells record.highestLocal?.toList {slot | record.RefersTo slot} := by
  cases record with
  | textJumps table =>
    rw [refersTo_jumpTable rfl]
    exact .nothing
  | integerJumps table =>
    rw [refersTo_jumpTable rfl]
    exact .nothing
  | dictUpdate slots =>
    rw [refersTo_dictUpdate]
    exact (Tells.words slots).top
  | foreach loop =>
    have last := tells_lastValue? (few loop rfl)
    rw [refersTo_foreach]
    exact ((Tells.words loop.lists.flatten).append ((Tells.single loop.counter).append last)).top

/-- Three lists are kept in the slots 9, 10 and 11. -/
example : highestLocal? (foreach ⟨.current, 0, 9, [[1], [2], [3]]⟩) = some 11 := by decide

end Auxiliary

/-! ## The count of a block -/

namespace Block

open Auxiliary

variable {block : Block}

theorem tells_auxiliaries
    (few : ∀ loop, .foreach loop ∈ block.auxiliaries → loop.lists.length ≤ 4294967295) :
    Tells (block.auxiliaries.filterMap highestLocal?) {slot | block.RefersTo slot} := by
  rw [List.filterMap_eq_flatMap_toList]
  apply Tells.gather
  intro record listed
  apply tells_highestLocal?
  rintro loop rfl
  exact few loop listed

theorem referencedLocals_of_tells {slots : Set Nat}
    (tells : Tells (block.auxiliaries.filterMap highestLocal?) slots) :
    (∃ highest, IsGreatest slots highest ∧
        block.referencedLocals.toNat = min 4294967295 (highest + 1)) ∨
      slots = ∅ ∧ block.referencedLocals = 0 := by
  rw [referencedLocals]
  generalize block.auxiliaries.filterMap highestLocal? = words at tells
  cases tells with
  | nothing => exact .inr ⟨rfl, rfl⟩
  | @highest _ _ word slot top greatest told =>
    refine .inl ⟨slot, greatest, ?_⟩
    rw [top]
    show (saturatingAdd word 1).toNat = _
    rw [toNat_saturatingAdd, told]
    show min 4294967295 (min 4294967295 slot + 1) = _
    omega

theorem checkedLocalCount_of_derived (uncounted : block.compiledLocals = none)
    (untabled : block.localTable = none) :
    block.checkedLocalCount = .ok block.referencedLocals := by
  rw [checkedLocalCount, uncounted, untabled]

theorem referencedLocals_withoutJumpTables :
    block.withoutJumpTables.referencedLocals = block.referencedLocals := by
  have same : block.withoutJumpTables.auxiliaries.filterMap highestLocal? =
      block.auxiliaries.filterMap highestLocal? := by
    rw [withoutJumpTables, List.filterMap_filter]
    apply List.filterMap_congr
    intro record _
    cases record <;> rfl
  rw [referencedLocals, same, referencedLocals]

/-- **The derived count covers the slots that are referred to, and no more.**  A block that has
neither a count nor a table of its locals, and no loop with more lists than a word counts, has one
local more than its highest slot as far as words go, and none if nothing is referred to.  The count
is reached without a failure, jump tables do not change it, and no step on the way leaves the
words. -/
theorem localCount_exact (uncounted : block.compiledLocals = none)
    (untabled : block.localTable = none)
    (few : ∀ loop, .foreach loop ∈ block.auxiliaries → loop.lists.length ≤ 4294967295) :
    block.checkedLocalCount = .ok block.localCount ∧
      ((∃ highest, IsGreatest {slot | block.RefersTo slot} highest ∧
          block.localCount.toNat = min 4294967295 (highest + 1)) ∨
        (∀ slot, ¬ block.RefersTo slot) ∧ block.localCount = 0) ∧
      block.withoutJumpTables.localCount = block.localCount ∧
      ∀ loop, .foreach loop ∈ block.auxiliaries → loop.lists ≠ [] → StepsInWords loop := by
  have derived := checkedLocalCount_of_derived uncounted untabled
  have count : block.localCount = block.referencedLocals := localCount_of_checked derived
  have without : block.withoutJumpTables.localCount = block.withoutJumpTables.referencedLocals :=
    localCount_of_checked (checkedLocalCount_of_derived uncounted untabled)
  refine ⟨?_, ?_, ?_, ?_⟩
  · rw [count, derived]
  · rw [count]
    rcases referencedLocals_of_tells (tells_auxiliaries few) with found | ⟨empty, zero⟩
    · exact .inl found
    · exact .inr ⟨Set.eq_empty_iff_forall_notMem.mp empty, zero⟩
  · rw [without, count, referencedLocals_withoutJumpTables]
  · exact fun loop listed nonempty => stepsInWords nonempty (few loop listed)

/-- A loop over three lists whose last slot is behind the last word. -/
def farLoop : ForeachLoop := ⟨.current, 7, 4294967294, [[2], [], [5, 4]]⟩

/-- A block with that loop, one without lists, and a jump table with a key that is no word. -/
def farBlock : Block where
  code := []
  literals := []
  auxiliaries := [.integerJumps (JumpTable.empty.insert 4294967299 8), .dictUpdate [3, 4294967293],
    .foreach ⟨.legacy, 9, 4294967295, []⟩, .foreach farLoop]
  exceptions := []
  maxStack := 0
  compiledLocals := none
  localTable := none

/-- Its count stops at the greatest word. -/
theorem localCount_exact_beyond_words :
    farBlock.compiledLocals = none ∧ farBlock.localTable = none ∧
      (∀ loop, .foreach loop ∈ farBlock.auxiliaries → loop.lists.length ≤ 4294967295) ∧
      .foreach farLoop ∈ farBlock.auxiliaries ∧ farLoop.lists ≠ [] ∧ farBlock.RefersTo 4294967296 ∧
      farBlock.localCount = 4294967295 ∧ farBlock.withoutJumpTables.localCount = 4294967295 ∧
      StepsInWords farLoop := by
  have few : ∀ loop, .foreach loop ∈ farBlock.auxiliaries → loop.lists.length ≤ 4294967295 := by
    simp [farBlock, farLoop]
  have listed : .foreach farLoop ∈ farBlock.auxiliaries := by
    simp [farBlock]
  have nonempty : farLoop.lists ≠ [] := List.cons_ne_nil _ _
  have far : farBlock.RefersTo 4294967296 :=
    ⟨_, listed, @RefersTo.value farLoop 2 (by decide)⟩
  obtain ⟨-, found, without, steps⟩ := @localCount_exact farBlock rfl rfl few
  have count : farBlock.localCount = 4294967295 := by
    rcases found with ⟨highest, greatest, count⟩ | ⟨nowhere, -⟩
    · have above : 4294967296 ≤ highest := greatest.2 far
      apply UInt32.toNat_inj.mp
      rw [count]
      show _ = 4294967295
      omega
    · exact absurd far (nowhere _)
  exact ⟨rfl, rfl, few, listed, nonempty, far, count, without.trans count,
    steps farLoop listed nonempty⟩

end Block

end CompiledScript
