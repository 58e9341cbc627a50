import CompiledScript.Proofs.Literal.Alike
import CompiledScript.Proofs.Literal.Output
import CompiledScript.Proofs.Pairing
import CompiledScript.Proofs.Wire.Bounds

/-!
# When literals are written

A literal is written exactly if everything in it is within the bounds.  Two things
have to be told apart: what a literal holds itself, its texts, its lengths and the
records of its block, and how deep literals are nested inside it.

Depth is counted from below, with nothing for a scalar and one level for every other
literal above the deepest one inside it, whichever way that is held.  The writer counts
from above instead: it starts with as many levels as there may be and gives one up at
each literal that opens one, also for the keys of a map, which are encoded apart from
the rest.  Both counts agree on which literals are too deep.
-/

set_option autoImplicit false

namespace CompiledScript

open Encoder

variable {limits : Limits}

/-! ## Depth -/

namespace Literal

/-- How deep literals are nested in a literal: a scalar has depth zero, and any other
literal has one more than the deepest literal inside it. -/
def depth : (literal : Literal) → Nat
  | int _ | bigInt _ | boolean _ | bytes _ | double _ | text _ => 0
  | nested => (nested.children.attach.map fun child => child.1.depth).foldr max 0 + 1
termination_by literal => sizeOf literal
decreasing_by exact sizeOf_child_lt child.2

theorem depth_of_nested {literal : Literal} (nested : ¬ literal.IsScalar) :
    literal.depth = (literal.children.map depth).foldr max 0 + 1 := by
  cases literal with
  | map _ | list _ | closure _ _ _ | block _ _ => simp only [depth, List.attach_map_val]
  | int _ | bigInt _ | boolean _ | bytes _ | double _ | text _ => exact absurd trivial nested

theorem depth_of_isScalar {literal : Literal} (scalar : literal.IsScalar) :
    literal.depth = 0 := by
  cases literal with
  | map _ | list _ | closure _ _ _ | block _ _ => exact scalar.elim
  | int _ | bigInt _ | boolean _ | bytes _ | double _ | text _ => rw [depth]

/-- The greatest of some numbers is within a bound if each of them is. -/
theorem foldr_max_le {numbers : List Nat} {bound : Nat} :
    numbers.foldr max 0 ≤ bound ↔ ∀ number ∈ numbers, number ≤ bound := by
  induction numbers with
  | nil => simp
  | cons number numbers ih => rw [List.foldr_cons, Nat.max_le, ih, List.forall_mem_cons]

theorem depth_eq_zero {literal : Literal} : literal.depth = 0 ↔ literal.IsScalar := by
  constructor
  · intro flat
    by_contra nested
    rw [depth_of_nested nested] at flat
    cases flat
  · exact depth_of_isScalar

/-- A literal needs one level more than the literals inside it. -/
theorem depth_le_succ {literal : Literal} {levels : Nat} :
    literal.depth ≤ levels + 1 ↔ ∀ child ∈ literal.children, child.depth ≤ levels := by
  by_cases scalar : literal.IsScalar
  · rw [depth_of_isScalar scalar, children_of_isScalar scalar]
    simp
  · rw [depth_of_nested scalar, Nat.add_le_add_iff_right, foldr_max_le, List.forall_mem_map]

end Literal

/-! ## Within the bounds -/

namespace Auxiliary

/-- The tables of a record have no more entries, and its keys are no longer, than the
bounds allow. -/
def Bounded (limits : Limits) : Auxiliary → Prop
  | textJumps table =>
    table.entries.length ≤ limits.maxElements ∧
      ∀ entry ∈ table.entries, entry.1.utf8ByteSize ≤ limits.maxStringLength
  | integerJumps table => table.entries.length ≤ limits.maxElements
  | dictUpdate slots => slots.length ≤ limits.maxElements
  | «foreach» loop =>
    loop.lists.length ≤ limits.maxElements ∧
      ∀ slots ∈ loop.lists, slots.length ≤ limits.maxElements

instance Bounded.decidable (limits : Limits) : DecidablePred (Bounded limits)
  | textJumps table =>
    inferInstanceAs (Decidable (table.entries.length ≤ limits.maxElements ∧
      ∀ entry ∈ table.entries, entry.1.utf8ByteSize ≤ limits.maxStringLength))
  | integerJumps table =>
    inferInstanceAs (Decidable (table.entries.length ≤ limits.maxElements))
  | dictUpdate slots => inferInstanceAs (Decidable (slots.length ≤ limits.maxElements))
  | «foreach» loop =>
    inferInstanceAs (Decidable (loop.lists.length ≤ limits.maxElements ∧
      ∀ slots ∈ loop.lists, slots.length ≤ limits.maxElements))

theorem succeeds_slots (words : limits.InWords) (what : String) (slots : List UInt32) :
    (encodeSlots limits what slots).Succeeds ↔ slots.length ≤ limits.maxElements := by
  rw [encodeSlots, succeeds_table words.maxElements]
  exact and_iff_left fun slot _ => succeeds_word32 slot

theorem succeeds_jumps {κ : Type} [JumpKey κ] (words : limits.InWords) (encodeKey : κ → Encoder)
    (table : JumpTable κ) :
    (encodeJumps limits encodeKey table).Succeeds ↔
      table.entries.length ≤ limits.maxElements ∧
        ∀ entry ∈ table.entries, (encodeKey entry.1).Succeeds := by
  rw [encodeJumps, succeeds_table words.maxElements]
  simp only [succeeds_append, succeeds_word32, and_true]

theorem succeeds_loop (words : limits.InWords) (loop : ForeachLoop) :
    (encodeLoop limits loop).Succeeds ↔
      loop.lists.length ≤ limits.maxElements ∧
        ∀ slots ∈ loop.lists, slots.length ≤ limits.maxElements := by
  simp only [encodeLoop, succeeds_append, succeeds_count words.maxElements, succeeds_word32,
    succeeds_table words.maxElements, succeeds_slots words, and_true]
  exact and_self_left

/-- A record is written exactly if it is within the bounds. -/
theorem succeeds_encode (words : limits.InWords) (record : Auxiliary) :
    (encode limits record).Succeeds ↔ record.Bounded limits := by
  rw [encode.eq_def, succeeds_append]
  refine (and_iff_right (succeeds_word32 _)).trans ?_
  cases record with
  | textJumps table =>
    refine (succeeds_jumps words _ table).trans (and_congr_right fun _ => ?_)
    exact forall₂_congr fun entry _ => succeeds_text words _ _
  | integerJumps table =>
    refine (succeeds_jumps words _ table).trans ?_
    exact and_iff_left fun entry _ => succeeds_int64 _
  | dictUpdate slots => exact succeeds_slots words _ slots
  | «foreach» loop => exact succeeds_loop words loop

end Auxiliary

/-- What a block holds is within the bounds, except for what is inside its literals.  A
table of locals is bounded only if its length is what is written for the locals. -/
structure Block.OwnBounded (limits : Limits) (block : Block) : Prop where
  code : block.code.length ≤ limits.maxCodeLength
  literals : block.literals.length ≤ limits.maxLiterals
  auxiliaries : block.auxiliaries.length ≤ limits.maxAuxiliaries
  records : ∀ record ∈ block.auxiliaries, record.Bounded limits
  exceptions : block.exceptions.length ≤ limits.maxExceptions
  locals : block.compiledLocals = none → ∀ table ∈ block.localTable, table.length ≤ 4294967295

instance Block.OwnBounded.decidable (limits : Limits) (block : Block) :
    Decidable (block.OwnBounded limits) :=
  decidable_of_iff
    (block.code.length ≤ limits.maxCodeLength ∧ block.literals.length ≤ limits.maxLiterals ∧
      block.auxiliaries.length ≤ limits.maxAuxiliaries ∧
        (∀ record ∈ block.auxiliaries, record.Bounded limits) ∧
          block.exceptions.length ≤ limits.maxExceptions ∧
            (block.compiledLocals = none → ∀ table ∈ block.localTable, table.length ≤ 4294967295))
    ⟨fun ⟨code, literals, auxiliaries, records, exceptions, locals⟩ =>
        ⟨code, literals, auxiliaries, records, exceptions, locals⟩,
      fun ⟨code, literals, auxiliaries, records, exceptions, locals⟩ =>
        ⟨code, literals, auxiliaries, records, exceptions, locals⟩⟩

theorem ExceptionRange.succeeds_encode (range : ExceptionRange) : range.encode.Succeeds := by
  simp [encode]

namespace Block

/-- The number of locals is known unless the table of locals is too long. -/
theorem checkedLocalCount_isOk {block : Block} :
    (∃ count, block.checkedLocalCount = .ok count) ↔
      (block.compiledLocals = none →
        ∀ table ∈ block.localTable, table.length ≤ 4294967295) := by
  rw [checkedLocalCount]
  cases block.compiledLocals with
  | some count => simp
  | none =>
    cases block.localTable with
    | none => simp
    | some table =>
      by_cases short : table.length ≤ 4294967295
      · simp [short]
      · simp [short]

/-- A block is written if what it holds is within the bounds and its literals are written. -/
theorem succeeds_encodeWith (words : limits.InWords) {encodeLiteral : Literal → Encoder}
    {block : Block} :
    (block.encodeWith limits encodeLiteral).Succeeds ↔
      block.OwnBounded limits ∧ ∀ literal ∈ block.literals, (encodeLiteral literal).Succeeds := by
  simp only [encodeWith, succeeds_append, succeeds_count words.maxCodeLength, succeeds_raw,
    succeeds_table words.maxLiterals, succeeds_table words.maxAuxiliaries,
    succeeds_table words.maxExceptions, succeeds_word32, Auxiliary.succeeds_encode words,
    ExceptionRange.succeeds_encode, and_true, implies_true]
  constructor
  · rintro ⟨⟨⟨⟨code, literals, pooled⟩, auxiliaries, records⟩, exceptions⟩, written⟩
    have counted : ∃ count, block.checkedLocalCount = .ok count := by
      split at written
      · rename_i count counted
        exact ⟨count, counted⟩
      · exact absurd written (not_succeeds_fail _)
    have locals := checkedLocalCount_isOk.mp counted
    exact ⟨⟨code, literals, auxiliaries, records, exceptions, locals⟩, pooled⟩
  · rintro ⟨own, pooled⟩
    obtain ⟨count, counted⟩ := checkedLocalCount_isOk.mpr own.locals
    refine ⟨⟨⟨⟨own.code, own.literals, pooled⟩, own.auxiliaries, own.records⟩, own.exceptions⟩, ?_⟩
    rw [counted]
    exact succeeds_word32 count

end Block

namespace Literal

/-- What a literal holds is within the bounds, except for what is inside the literals one
level below it. -/
def OwnBounded (limits : Limits) : Literal → Prop
  | int _ | boolean _ | double _ => True
  | bigInt value =>
    (bigInt value).tag = .bignum →
      (Bytes.shortest value.natAbs).length ≤ limits.maxStringLength
  | bytes value => value.length ≤ limits.maxStringLength
  | text value => value.utf8ByteSize ≤ limits.maxStringLength
  | map entries => entries.length ≤ limits.maxElements
  | list items => items.length ≤ limits.maxElements
  | closure scope parameters body =>
    scope.utf8ByteSize ≤ limits.maxStringLength ∧
      parameters.length ≤ limits.maxElements ∧
        (∀ parameter ∈ parameters, parameter.name.utf8ByteSize ≤ limits.maxStringLength) ∧
          body.OwnBounded limits
  | block scope body =>
    scope.utf8ByteSize ≤ limits.maxStringLength ∧ body.OwnBounded limits

instance OwnBounded.decidable (limits : Limits) : DecidablePred (OwnBounded limits)
  | int _ | boolean _ | double _ => .isTrue trivial
  | bigInt value =>
    inferInstanceAs (Decidable ((bigInt value).tag = .bignum →
      (Bytes.shortest value.natAbs).length ≤ limits.maxStringLength))
  | bytes value => inferInstanceAs (Decidable (value.length ≤ limits.maxStringLength))
  | text value => inferInstanceAs (Decidable (value.utf8ByteSize ≤ limits.maxStringLength))
  | map entries => inferInstanceAs (Decidable (entries.length ≤ limits.maxElements))
  | list items => inferInstanceAs (Decidable (items.length ≤ limits.maxElements))
  | closure scope parameters body =>
    inferInstanceAs (Decidable (scope.utf8ByteSize ≤ limits.maxStringLength ∧
      parameters.length ≤ limits.maxElements ∧
        (∀ parameter ∈ parameters, parameter.name.utf8ByteSize ≤ limits.maxStringLength) ∧
          body.OwnBounded limits))
  | block scope body =>
    inferInstanceAs (Decidable (scope.utf8ByteSize ≤ limits.maxStringLength ∧
      body.OwnBounded limits))

/-- A literal is within the bounds: what each literal in it holds is, and none of them is
nested deeper than allowed. -/
def Bounded (limits : Limits) (literal : Literal) : Prop :=
  literal.Throughout fun inner => inner.OwnBounded limits ∧ inner.depth ≤ limits.maxDepth

instance Bounded.decidable (limits : Limits) (literal : Literal) :
    Decidable (literal.Bounded limits) :=
  inferInstanceAs (Decidable (literal.Throughout fun inner =>
    inner.OwnBounded limits ∧ inner.depth ≤ limits.maxDepth))

/-! ### One level -/

/-- A literal that opens a level is written if there is a level left on which it is written. -/
theorem succeeds_inside {inner : Option (Literal → Encoder)} {literal : Literal}
    {body : (Literal → Encoder) → Encoder} {own : Prop} (nested : ¬ literal.IsScalar)
    (written : ∀ encodeItem, (body encodeItem).Succeeds ↔
      own ∧ ∀ child ∈ literal.children, (encodeItem child).Succeeds) :
    (encodeInside limits inner body).Succeeds ↔
      own ∧ (literal.IsScalar ∨
        ∃ encodeItem ∈ inner, ∀ child ∈ literal.children, (encodeItem child).Succeeds) := by
  rw [or_iff_right nested]
  cases inner with
  | none => simp [encodeInside]
  | some encodeItem => simp [encodeInside, written encodeItem]

/-- The keys of a map are staged if each of them is written. -/
theorem exists_staged {encodeKey : Literal → Encoder} {entries : List MapEntry} :
    (∃ staged, List.Forall₂ (Staged encodeKey) entries staged) ↔
      ∀ entry ∈ entries, (encodeKey entry.key).Succeeds := by
  constructor
  · rintro ⟨staged, paired⟩ entry found
    obtain ⟨piece, -, written, -⟩ := Pairing.partner paired found
    exact ⟨piece.1, written⟩
  · intro keys
    induction entries with
    | nil => exact ⟨[], .nil⟩
    | cons entry entries ih =>
      obtain ⟨⟨key, written⟩, others⟩ := List.forall_mem_cons.mp keys
      obtain ⟨staged, paired⟩ := ih others
      exact ⟨(key, entry.value) :: staged, .cons ⟨written, rfl⟩ paired⟩

/-- A map is written if it has no more entries than allowed and its keys and values are
written, the keys while they are staged and the values behind them. -/
theorem succeeds_map (words : limits.InWords) {encodeItem : Literal → Encoder}
    {entries : List MapEntry} :
    (encodeMap limits encodeItem entries).Succeeds ↔
      entries.length ≤ limits.maxElements ∧
        ∀ child ∈ (map entries).children, (encodeItem child).Succeeds := by
  -- What is staged for the entries is written in another order than they stand in.
  have placed : ∀ staged, List.Forall₂ (Staged encodeItem) entries staged →
      ((Encoder.table "map" limits.maxElements (sortStaged staged)
        (encodeStaged encodeItem)).Succeeds ↔
          entries.length ≤ limits.maxElements ∧
            ∀ piece ∈ staged, (encodeItem piece.2).Succeeds) := by
    intro staged paired
    rw [succeeds_table words.maxElements, (sortStaged_perm staged).length_eq, paired.length_eq]
    refine and_congr_right fun _ => forall_congr' fun piece => ?_
    rw [(sortStaged_perm staged).mem_iff, encodeStaged, succeeds_append]
    exact imp_congr_right fun _ => and_iff_right (succeeds_raw _)
  constructor
  · rintro ⟨bytes, written⟩
    obtain ⟨staged, paired, table⟩ := writes_map.mp written
    obtain ⟨few, values⟩ := (placed staged paired).mp ⟨bytes, table⟩
    refine ⟨few, fun child below => ?_⟩
    obtain ⟨entry, found, rfl | rfl⟩ := mem_children_map.mp below
    · exact exists_staged.mp ⟨staged, paired⟩ entry found
    · obtain ⟨piece, listed, -, same⟩ := Pairing.partner paired found
      rw [← same]
      exact values piece listed
  · rintro ⟨few, below⟩
    obtain ⟨staged, paired⟩ :=
      exists_staged.mpr fun entry found => below entry.key (key_mem_children found)
    have values : ∀ piece ∈ staged, (encodeItem piece.2).Succeeds := by
      intro piece listed
      obtain ⟨entry, found, -, same⟩ := Pairing.origin paired listed
      rw [same]
      exact below entry.value (value_mem_children found)
    obtain ⟨bytes, written⟩ := (placed staged paired).mpr ⟨few, values⟩
    exact ⟨bytes, writes_map.mpr ⟨staged, paired, written⟩⟩

theorem succeeds_parameter (words : limits.InWords) {encodeItem : Literal → Encoder}
    {parameter : Parameter} :
    (encodeParameter limits encodeItem parameter).Succeeds ↔
      parameter.name.utf8ByteSize ≤ limits.maxStringLength ∧
        ∀ fallback ∈ parameter.fallback, (encodeItem fallback).Succeeds := by
  rcases parameter with ⟨name, _ | fallback⟩
  · simp [encodeParameter, succeeds_text words]
  · simp [encodeParameter, succeeds_text words]

/-- **One level of a literal.**  A literal is written if what it holds is within the bounds
and, unless it is a scalar, there is a level left on which everything inside it is written. -/
theorem succeeds_encodeWith (words : limits.InWords) {inner : Option (Literal → Encoder)}
    {literal : Literal} :
    (encodeWith limits inner literal).Succeeds ↔
      literal.OwnBounded limits ∧
        (literal.IsScalar ∨
          ∃ encodeItem ∈ inner, ∀ child ∈ literal.children, (encodeItem child).Succeeds) := by
  rw [encodeWith.eq_def, succeeds_append]
  refine (and_iff_right (succeeds_word32 _)).trans ?_
  cases literal with
  | int value => simp [OwnBounded, IsScalar]
  | bigInt value =>
    by_cases needs : needsUnsigned value = true
    · simp [OwnBounded, IsScalar, tag, needs]
    · simp [OwnBounded, IsScalar, tag, needs, encodeInteger, succeeds_bytes words]
  | boolean value => simp [OwnBounded, IsScalar]
  | bytes value => simp [OwnBounded, IsScalar, succeeds_bytes words]
  | map entries => exact succeeds_inside id fun encodeItem => succeeds_map words
  | double bits => simp [OwnBounded, IsScalar]
  | list items =>
    exact succeeds_inside id fun encodeItem => succeeds_table words.maxElements _ _ _
  | text value => simp [OwnBounded, IsScalar, succeeds_text words]
  | closure scope parameters body =>
    refine succeeds_inside id fun encodeItem => ?_
    simp only [succeeds_append, succeeds_text words, succeeds_table words.maxElements,
      succeeds_parameter words, Block.succeeds_encodeWith words, forall_mem_children_closure,
      OwnBounded, forall₂_and]
    constructor
    · rintro ⟨⟨name, few, names, fallbacks⟩, own, pooled⟩
      exact ⟨⟨name, few, names, own⟩, fallbacks, pooled⟩
    · rintro ⟨⟨name, few, names, own⟩, fallbacks, pooled⟩
      exact ⟨⟨name, few, names, fallbacks⟩, own, pooled⟩
  | block scope body =>
    refine succeeds_inside id fun encodeItem => ?_
    rw [succeeds_append, succeeds_text words, Block.succeeds_encodeWith words, ← and_assoc]
    exact Iff.rfl

/-! ### All levels -/

/-- **A literal is written within some levels exactly if everything in it is within the bounds
and it is no deeper than that.** -/
theorem succeeds_within (words : limits.InWords) {levels : Nat} {literal : Literal} :
    (encodeWithin limits levels literal).Succeeds ↔
      literal.Throughout (OwnBounded limits) ∧ literal.depth ≤ levels := by
  induction levels generalizing literal with
  | zero =>
    rw [encodeWithin, succeeds_encodeWith words, Nat.le_zero, depth_eq_zero, Throughout.iff]
    constructor
    · rintro ⟨own, scalar | ⟨_, none, -⟩⟩
      · refine ⟨⟨own, ?_⟩, scalar⟩
        rw [children_of_isScalar scalar]
        exact fun child found => absurd found List.not_mem_nil
      · cases none
    · rintro ⟨⟨own, -⟩, scalar⟩
      exact ⟨own, .inl scalar⟩
  | succ levels ih =>
    rw [encodeWithin, succeeds_encodeWith words, depth_le_succ, Throughout.iff]
    have inside : (literal.IsScalar ∨ ∃ encodeItem ∈ some (encodeWithin limits levels),
        ∀ child ∈ literal.children, (encodeItem child).Succeeds) ↔
          ∀ child ∈ literal.children,
            child.Throughout (OwnBounded limits) ∧ child.depth ≤ levels := by
      constructor
      · rintro (scalar | ⟨encodeItem, same, below⟩) child found
        · rw [children_of_isScalar scalar] at found
          cases found
        · cases same
          exact ih.mp (below child found)
      · intro below
        exact .inr ⟨_, rfl, fun child found => ih.mpr (below child found)⟩
    rw [inside, and_assoc]
    exact and_congr_right fun _ => forall₂_and

/-! ### Whole literals -/

/-- A literal inside another one is less deep. -/
theorem depth_lt_of_mem_children {literal child : Literal} (below : child ∈ literal.children) :
    child.depth < literal.depth := by
  have nested : ¬ literal.IsScalar := by
    intro scalar
    rw [children_of_isScalar scalar] at below
    cases below
  obtain ⟨levels, same⟩ : ∃ levels, literal.depth = levels + 1 :=
    Nat.exists_eq_add_one_of_ne_zero (fun flat => nested (depth_eq_zero.mp flat))
  rw [same]
  exact Nat.lt_succ_of_le (depth_le_succ.mp (Nat.le_of_eq same) child below)

/-- Only the outermost literal has to be looked at to tell whether one is too deep. -/
theorem bounded_iff {literal : Literal} :
    literal.Bounded limits ↔
      literal.Throughout (OwnBounded limits) ∧ literal.depth ≤ limits.maxDepth := by
  constructor
  · intro bounded
    refine ⟨?_, bounded.here.2⟩
    induction bounded with
    | intro here below ih => exact .intro here.1 ih
  · rintro ⟨own, shallow⟩
    induction own with
    | intro here below ih =>
      refine .intro ⟨here, shallow⟩ fun child found => ih child found ?_
      exact Nat.le_trans (Nat.le_of_lt (depth_lt_of_mem_children found)) shallow

theorem succeeds_encode (words : limits.InWords) (literal : Literal) :
    (literal.encode limits).Succeeds ↔ literal.Bounded limits :=
  (succeeds_within words).trans bounded_iff.symm

end Literal

end CompiledScript
