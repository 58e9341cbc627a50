import CompiledScript.Proofs.Container.Equality
import CompiledScript.Proofs.Literal.Dictionary

/-!
# Equality of what can be built

A program puts a literal together from smaller ones, and a map from its entries, which
are put in one after the other and replace each other where their keys are equal.  What
can be put together in this way is said here without any mention of how the result
looks (`Literal.Built`), and it is exactly what is well formed.

On these literals, and on the blocks over them, equality is an equivalence, although it
looks for the entries of one map in the other and not the other way round, and although
it sees of the locals of a block only their number.  A lambda is one of the literals.
On maps that were not put together entry by entry this fails: a map that holds one key
twice equals another that holds this key and a different one, but not the reverse.
-/

set_option autoImplicit false

namespace CompiledScript

/-- A literal that is put together from smaller ones, and each map in it by putting in entries
one after the other. -/
inductive Literal.Built : Literal → Prop where
  | scalar {literal : Literal} (scalar : literal.IsScalar) : Built literal
  | map {pairs : List MapEntry} (keys : ∀ pair ∈ pairs, Built pair.key)
      (values : ∀ pair ∈ pairs, Built pair.value) : Built (map (Dictionary.ofList pairs))
  | list {items : List Literal} (below : ∀ item ∈ items, Built item) : Built (list items)
  | closure {scope : String} {parameters : List Parameter} {body : Block}
      (fallbacks : ∀ parameter ∈ parameters, ∀ fallback ∈ parameter.fallback, Built fallback)
      (pooled : ∀ literal ∈ body.literals, Built literal) : Built (closure scope parameters body)
  | block {scope : String} {body : Block} (pooled : ∀ literal ∈ body.literals, Built literal) :
      Built (block scope body)

/-- The literals in the pool of a block are built. -/
def Block.Built (block : Block) : Prop := ∀ literal ∈ block.literals, literal.Built

/-! ## What can be built is well formed -/

namespace Dictionary

/-- What holds of the parts of all entries holds after a further entry of which it holds was put
in. -/
theorem parts_insert {holds : Literal → Prop} {key value : Literal} {entries : List MapEntry}
    (keyHolds : holds key) (valueHolds : holds value)
    (before : ∀ entry ∈ entries, holds entry.key ∧ holds entry.value) :
    ∀ entry ∈ insert key value entries, holds entry.key ∧ holds entry.value := by
  induction entries with
  | nil =>
    intro entry found
    rw [List.mem_singleton.mp found]
    exact ⟨keyHolds, valueHolds⟩
  | cons first rest ih =>
    obtain ⟨firstHolds, restHolds⟩ := List.forall_mem_cons.mp before
    rw [insert]
    split
    · -- The key is there already and stays, and only the value is a new one.
      exact List.forall_mem_cons.mpr ⟨⟨firstHolds.1, valueHolds⟩, restHolds⟩
    · exact List.forall_mem_cons.mpr ⟨firstHolds, ih restHolds⟩

/-- The keys and values of a map are among those that were put in. -/
theorem parts_ofList {holds : Literal → Prop} {pairs : List MapEntry}
    (parts : ∀ pair ∈ pairs, holds pair.key ∧ holds pair.value) :
    ∀ entry ∈ ofList pairs, holds entry.key ∧ holds entry.value := by
  suffices grown : ∀ entries : List MapEntry,
      (∀ entry ∈ entries, holds entry.key ∧ holds entry.value) →
        ∀ entry ∈ pairs.foldl (fun entries pair => insert pair.key pair.value entries) entries,
          holds entry.key ∧ holds entry.value by
    apply grown []
    intro entry found
    cases found
  induction pairs with
  | nil =>
    intro entries before
    exact before
  | cons pair pairs ih =>
    obtain ⟨here, others⟩ := List.forall_mem_cons.mp parts
    intro entries before
    exact ih others _ (parts_insert here.1 here.2 before)

end Dictionary

namespace Literal

theorem Built.wellFormed {literal : Literal} (built : literal.Built) : literal.WellFormed := by
  induction built with
  | @scalar literal scalar =>
    rw [WellFormed, Throughout.leaf (children_of_isScalar scalar)]
    cases literal with
    | map _ => exact scalar.elim
    | _ => trivial
  | map _ _ keys values =>
    apply Throughout.map.mpr
    constructor
    · exact Dictionary.distinct_ofList _
    · apply Dictionary.parts_ofList
      intro pair found
      exact ⟨keys pair found, values pair found⟩
  | list _ items => exact Throughout.list.mpr ⟨trivial, items⟩
  | closure _ _ fallbacks pooled => exact Throughout.closure.mpr ⟨trivial, fallbacks, pooled⟩
  | block _ pooled => exact Throughout.block.mpr ⟨trivial, pooled⟩

theorem WellFormed.built {literal : Literal} (well : literal.WellFormed) : literal.Built := by
  change literal.Throughout DistinctKeys at well
  induction well with
  | @intro literal distinct _ below =>
    cases literal with
    | map entries =>
      -- Entries with distinct keys are what one gets by putting them in.
      rw [← Dictionary.ofList_of_distinct distinct]
      apply Built.map
      · intro entry found
        exact below _ (key_mem_children found)
      · intro entry found
        exact below _ (value_mem_children found)
    | list items => exact .list below
    | closure scope parameters body =>
      apply Built.closure
      · intro parameter found fallback there
        obtain ⟨name, _⟩ := parameter
        cases there
        exact below _ (fallback_mem_children found)
      · intro literal found
        exact below _ (pooled_mem_children found)
    | block scope body => exact .block below
    | int _ | bigInt _ | boolean _ | bytes _ | double _ | text _ => exact .scalar trivial

/-- **What can be built is what is well formed.** -/
theorem built_iff_wellFormed {literal : Literal} : literal.Built ↔ literal.WellFormed :=
  ⟨Built.wellFormed, WellFormed.built⟩

end Literal

theorem Block.Built.wellFormed {block : Block} (built : block.Built) : block.WellFormed := by
  intro literal found
  exact (built literal found).wellFormed

/-! ## Equality -/

/-- On well-formed blocks equality is an equivalence because it is one on their pools. -/
theorem Block.equality_equivalence :
    Equivalence fun left right : { block : Block // block.WellFormed } =>
      (left.1 == right.1) = true where
  refl block := by
    apply (equal_iff_same block.2 block.2).mpr
    apply Alike.refl
    intro literal found
    exact Literal.equalityOn_wellFormed.similar_refl (block.2 literal found)
  symm {left right} same := by
    rw [equal_iff_same left.2 right.2] at same
    rw [equal_iff_same right.2 left.2]
    exact same.same_symm
  trans {left middle right} first second := by
    rw [equal_iff_same left.2 middle.2] at first
    rw [equal_iff_same middle.2 right.2] at second
    rw [equal_iff_same left.2 right.2]
    exact first.trans Literal.equalityOn_wellFormed.similar_trans second

theorem Literal.equality_equivalence :
    Equivalence fun left right : { literal : Literal // literal.WellFormed } =>
      (left.1 == right.1) = true where
  refl literal := equalityOn_wellFormed.refl literal.1 literal.2
  symm {left right} same := equalityOn_wellFormed.symm left.1 right.1 left.2 right.2 same
  trans {left middle right} first second :=
    equalityOn_wellFormed.trans left.1 middle.1 right.1 left.2 middle.2 right.2 first second

/-- **Equality is an equivalence on everything that can be built**: on literals, lambdas among
them, and on blocks. -/
theorem equality_equivalence_of_built :
    (Equivalence fun left right : { literal : Literal // literal.Built } =>
        (left.1 == right.1) = true) ∧
      Equivalence fun left right : { block : Block // block.Built } =>
        (left.1 == right.1) = true := by
  constructor
  · exact Literal.equality_equivalence.comap fun literal : { literal : Literal // literal.Built } =>
      ⟨literal.1, literal.2.wellFormed⟩
  · exact Block.equality_equivalence.comap fun block : { block : Block // block.Built } =>
      ⟨block.1, block.2.wellFormed⟩

/-- Maps that were not built need not be equal in both directions. -/
example :
    let twice : Literal := .map [⟨.int 1, .text "a"⟩, ⟨.int 1, .text "a"⟩]
    let apart : Literal := .map [⟨.int 1, .text "a"⟩, ⟨.int 2, .text "b"⟩]
    (twice == apart) = true ∧ (apart == twice) = false := by
  cbv

end CompiledScript
