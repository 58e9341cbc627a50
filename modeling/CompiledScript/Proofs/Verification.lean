import CompiledScript.CommandLine.Program
import CompiledScript.Proofs.Literal.Tree

/-!
# What verification finds

Blocks stand in a container in two ways.  The container owns its top block and the
bodies in its tables, and a block may hold further blocks in its pool: as the body
of a lambda or of a literal that is bound to a namespace, at any depth inside the
keys and values of maps, the items of lists, the values that parameters fall back
to and the pools of other blocks.

Verification looks at the blocks that are owned.  Every pair that it reports names
a range of an owned block that runs past the end of its code, and it reports all of
them, so nothing is reported exactly if the ranges of all owned blocks are within
bounds.  The blocks in pools are not looked at.  The ranges of all blocks in a
container are therefore within bounds exactly if nothing is reported and the ranges
of the pooled blocks are within bounds as well, and the last condition cannot be
left out: a container is accepted although a lambda in the pool of its top block has
a range of five bytes in code of one byte.
-/

set_option autoImplicit false

namespace CompiledScript

/-! ## The blocks of a container -/

namespace Literal

/-- The block that is the body of a literal. -/
def body? : Literal → Option Block
  | closure _ _ body | block _ body => some body
  | _ => none

/-- A block stands in a literal, as its body or in a literal below it. -/
inductive Holds : Literal → Block → Prop where
  | body {literal : Literal} {held : Block} (own : literal.body? = some held) : Holds literal held
  | inside {literal child : Literal} {held : Block} (found : child ∈ literal.children)
      (holds : Holds child held) : Holds literal held

end Literal

/-- A block stands in the pool of another, at any depth. -/
def Block.Pools (block held : Block) : Prop := ∃ literal ∈ block.literals, literal.Holds held

namespace Container

/-- A block stands in a container: it is owned, or it stands in the pool of an owned one. -/
def Holds (container : Container) (block : Block) : Prop :=
  ∃ owner owned, (owner, owned) ∈ container.ownedBlocks ∧ (block = owned ∨ owned.Pools block)

end Container

/-! ## Ranges within bounds -/

/-- No exception range of a block runs past the end of its code. -/
def Block.InBounds (block : Block) : Prop :=
  ∀ range ∈ block.exceptions, range.offset.toNat + range.length.toNat ≤ block.code.length

/-- The range with the given number runs past the end of the code of its block. -/
def Block.Strays (block : Block) (number : Nat) : Prop :=
  ∃ range, block.exceptions[number]? = some range ∧
    block.code.length < range.offset.toNat + range.length.toNat

namespace Block

/-- A range that does not run past the end of the code is not listed, and all others are. -/
theorem mem_strayRanges {block : Block} {number : Nat} :
    number ∈ block.strayRanges ↔ block.Strays number := by
  simp only [strayRanges, List.mem_filterMap, Strays]
  constructor
  · rintro ⟨⟨range, position⟩, listed, same⟩
    have found : block.exceptions[position]? = some range := List.mem_zipIdx_iff_getElem?.mp listed
    by_cases fits : range.fits block.code.length = true
    · simp [fits] at same
    · simp only [fits] at same
      cases same
      rw [ExceptionRange.fits_iff] at fits
      exact ⟨range, found, by omega⟩
  · rintro ⟨range, found, stray⟩
    have fits : ¬ range.fits block.code.length = true := by
      rw [ExceptionRange.fits_iff]
      omega
    exact ⟨(range, number), List.mem_zipIdx_iff_getElem?.mpr found, by simp [fits]⟩

/-- A block is within bounds if none of its ranges strays. -/
theorem inBounds_iff {block : Block} : block.InBounds ↔ ∀ number, ¬ block.Strays number := by
  constructor
  · rintro bounds number ⟨range, found, stray⟩
    have within := bounds range (List.mem_of_getElem? found)
    omega
  · intro none range listed
    obtain ⟨number, found⟩ := List.mem_iff_getElem?.mp listed
    exact Nat.le_of_not_lt fun stray => none number ⟨range, found, stray⟩

end Block

namespace Container

variable {container : Container}

/-- What is reported is a stray range of an owned block, and each of them is reported. -/
theorem mem_strayRanges {owner : BlockOwner} {number : Nat} :
    (owner, number) ∈ container.strayRanges ↔
      ∃ block, (owner, block) ∈ container.ownedBlocks ∧ block.Strays number := by
  simp only [strayRanges, List.mem_flatMap, List.mem_map]
  constructor
  · rintro ⟨⟨owner, block⟩, owned, _, listed, same⟩
    cases same
    exact ⟨block, owned, Block.mem_strayRanges.mp listed⟩
  · rintro ⟨block, owned, stray⟩
    exact ⟨(owner, block), owned, number, Block.mem_strayRanges.mpr stray, rfl⟩

/-- Nothing is reported exactly if the owned blocks are within bounds. -/
theorem strayRanges_eq_nil_iff :
    container.strayRanges = [] ↔
      ∀ owner block, (owner, block) ∈ container.ownedBlocks → block.InBounds := by
  rw [List.eq_nil_iff_forall_not_mem]
  constructor
  · intro none owner block owned
    rw [Block.inBounds_iff]
    intro number stray
    exact none (owner, number) (mem_strayRanges.mpr ⟨block, owned, stray⟩)
  · rintro bounds ⟨owner, number⟩ reported
    obtain ⟨block, owned, stray⟩ := mem_strayRanges.mp reported
    exact Block.inBounds_iff.mp (bounds owner block owned) number stray

/-- A container has no inconsistency exactly if no range strays and the header agrees with the top
block. -/
theorem inconsistencies_eq_nil_iff :
    container.inconsistencies = [] ↔
      container.strayRanges = [] ∧ container.header.crossCheck container.top = [] := by
  simp [inconsistencies]

end Container

/-- Only a container without an inconsistency passes. -/
theorem CommandLine.Verdict.passed_ofContainer {path : String} {container : Container} :
    (ofContainer path container).passed = true ↔ container.inconsistencies = [] := by
  rw [ofContainer]
  split
  · rename_i none
    simp [none]
  · rename_i found
    simpa using found

/-! ## What verification decides -/

/-- **Verification bounds the exception ranges of the owned blocks.**  It reports exactly the stray
ranges of the top block and of the bodies in the tables, each with its owner and its number.  The
ranges of all blocks in a container, those in literals included, are within bounds exactly if
nothing is reported and the blocks in the pools of the owned ones are within bounds; and a container
passes exactly if the owned blocks are within bounds and the header agrees with the top block. -/
theorem verification_bounds_owned (container : Container) :
    (∀ owner number, (owner, number) ∈ container.strayRanges ↔
        ∃ block, (owner, block) ∈ container.ownedBlocks ∧ block.Strays number) ∧
      ((∀ block, container.Holds block → block.InBounds) ↔
        container.strayRanges = [] ∧
          ∀ owner owned, (owner, owned) ∈ container.ownedBlocks →
            ∀ held, owned.Pools held → held.InBounds) ∧
      ∀ path, (CommandLine.Verdict.ofContainer path container).passed = true ↔
        (∀ owner block, (owner, block) ∈ container.ownedBlocks → block.InBounds) ∧
          container.header.crossCheck container.top = [] := by
  refine ⟨fun _ _ => Container.mem_strayRanges, ?_, ?_⟩
  · rw [Container.strayRanges_eq_nil_iff]
    constructor
    · intro bounds
      refine ⟨fun owner block owned => ?_, fun owner owned listed held pooled => ?_⟩
      · exact bounds block ⟨owner, block, owned, .inl rfl⟩
      · exact bounds held ⟨owner, owned, listed, .inr pooled⟩
    · rintro ⟨owned, pooled⟩ block ⟨owner, holder, listed, rfl | inside⟩
      · exact owned owner block listed
      · exact pooled owner holder listed block inside
  · intro path
    rw [CommandLine.Verdict.passed_ofContainer, Container.inconsistencies_eq_nil_iff,
      Container.strayRanges_eq_nil_iff]

/-! ### A stray range that is not found -/

/-- A block with one byte of code and a range of five bytes. -/
def Block.overrunning : Block :=
  { Block.empty with code := [0], exceptions := [⟨.loop, 0, 0, 5, 0, 0, 0⟩] }

/-- A container whose top block has the overrunning block as the body of a lambda in its pool. -/
def Container.hidingOverrun : Container :=
  { header :=
      ⟨containerMagic, formatVersion, ⟨1, 0⟩, 0, 0, 0, 1, 0, 0, 0⟩
    top := { Block.empty with literals := [.closure "::" [] Block.overrunning] }
    procedures := []
    classes := []
    methods := [] }

/-- The container holds a block with a stray range; nothing is reported and the container passes. -/
theorem verification_misses_pooled :
    (∃ block, Container.hidingOverrun.Holds block ∧ ¬ block.InBounds) ∧
      Container.hidingOverrun.strayRanges = [] ∧
        CommandLine.Verdict.ofContainer "nested.tbc" Container.hidingOverrun =
          { output := "nested.tbc: ok (0 procedures, 0 classes, 0 methods)\n", passed := true } := by
  refine ⟨⟨Block.overrunning, ?_, ?_⟩, by decide, by decide +kernel⟩
  · have inside : Block.Pools Container.hidingOverrun.top Block.overrunning :=
      ⟨_, List.mem_singleton_self _, .body rfl⟩
    exact ⟨.topLevel, Container.hidingOverrun.top, List.mem_cons_self, .inr inside⟩
  · intro bounds
    have within := bounds _ (List.mem_singleton_self _)
    exact absurd within (by decide)

end CompiledScript
