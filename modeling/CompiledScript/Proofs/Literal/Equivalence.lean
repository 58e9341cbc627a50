import CompiledScript.Proofs.Literal.Alike
import Mathlib.Data.List.Pairwise

/-!
# Observational equality is an equivalence

Equality of literals is computed one-sidedly: a map equals another of the same
size when each of its entries is found in it, and entries are found under this
equality again.  On well-formed literals this is an equivalence all the same.

Both directions between the computed equality and likeness one level deep are
shown against a class of literals on which equality is known to be an
equivalence.  A map whose entries are all found in another of the same size sends
its entries to distinct entries, so it finds all of them; and an entry that is
alike is the one that is found, since its key is the only one of its kind.
Likeness passes symmetry and transitivity on to the next level, and induction on
the size of literals gives the whole.
-/

set_option autoImplicit false

namespace CompiledScript

/-! ## The computed equality, one level deep -/

theorem Literal.equalLists_iff {left right : List Literal} :
    Literal.equalLists left right = true ↔
      List.Forall₂ (fun one other => (one == other) = true) left right := by
  induction left generalizing right with
  | nil =>
    cases right with
    | nil => simp [Literal.equalLists]
    | cons other rest => simp [Literal.equalLists]
  | cons one lefts ih =>
    cases right with
    | nil => simp [Literal.equalLists]
    | cons other rest =>
      rw [Literal.equalLists, Bool.and_eq_true, ih, List.forall₂_cons]
      rfl

theorem MapEntry.allFoundIn_iff {entries others : List MapEntry} :
    MapEntry.allFoundIn entries others = true ↔
      ∀ entry ∈ entries, ∃ found, others.find? (fun other => entry.key == other.key) = some found ∧
        (entry.value == found.value) = true := by
  induction entries with
  | nil => simp [MapEntry.allFoundIn]
  | cons entry entries ih =>
    obtain ⟨key, value⟩ := entry
    rw [MapEntry.allFoundIn, Bool.and_eq_true, ih, List.forall_mem_cons]
    refine and_congr ?_ Iff.rfl
    have asked : (fun other : MapEntry => key.equal other.key) = fun other => key == other.key := rfl
    rw [asked]
    cases others.find? fun other => key == other.key with
    | some found =>
      simp only [Option.some.injEq, exists_eq_left']
      rfl
    | none => simp

theorem Parameter.equalLists_iff {left right : List Parameter} :
    Parameter.equalLists left right = true ↔
      List.Forall₂ (Parameter.Alike fun one other => (one == other) = true) left right := by
  induction left generalizing right with
  | nil =>
    cases right with
    | nil => simp [Parameter.equalLists]
    | cons other rest => simp [Parameter.equalLists]
  | cons one lefts ih =>
    obtain ⟨name, fallback⟩ := one
    cases right with
    | nil => cases fallback <;> simp [Parameter.equalLists]
    | cons other rest =>
      obtain ⟨otherName, otherFallback⟩ := other
      rw [List.forall₂_cons, ← ih]
      cases fallback with
      | none =>
        cases otherFallback with
        | none =>
          rw [Parameter.equalLists, Bool.and_eq_true, beq_iff_eq]
          exact and_congr ⟨fun same => ⟨same, .none⟩, fun alike => alike.1⟩ Iff.rfl
        | some other =>
          rw [Parameter.equalLists]
          · refine ⟨fun impossible => ?_, fun alike => ?_⟩
            · cases impossible
            · cases alike.1.2
          all_goals simp
      | some fallback =>
        cases otherFallback with
        | none =>
          rw [Parameter.equalLists]
          · refine ⟨fun impossible => ?_, fun alike => ?_⟩
            · cases impossible
            · cases alike.1.2
          all_goals simp
        | some other =>
          rw [Parameter.equalLists, Bool.and_eq_true, Bool.and_eq_true, beq_iff_eq]
          refine and_congr ⟨fun same => ⟨same.1, .some same.2⟩, fun alike => ⟨alike.1, ?_⟩⟩ Iff.rfl
          obtain ⟨-, fallbacks⟩ := alike
          cases fallbacks with
          | some same => exact same

/-- Equality of blocks is likeness under equality of literals. -/
theorem Block.equal_iff {left right : Block} :
    (left == right) = true ↔ left.Alike (fun one other => (one == other) = true) right := by
  obtain ⟨code, literals, auxiliaries, exceptions, maxStack, compiledLocals, localTable⟩ := left
  show Block.equal _ _ = true ↔ _
  simp only [Block.equal, Bool.and_eq_true, beq_iff_eq, Literal.equalLists_iff]
  constructor
  · rintro ⟨⟨⟨⟨⟨code, literals⟩, auxiliaries⟩, exceptions⟩, maxStack⟩, localCount⟩
    exact ⟨code, literals, auxiliaries, exceptions, maxStack, localCount⟩
  · rintro ⟨code, literals, auxiliaries, exceptions, maxStack, localCount⟩
    exact ⟨⟨⟨⟨⟨code, literals⟩, auxiliaries⟩, exceptions⟩, maxStack⟩, localCount⟩

/-! ## Against a class of literals -/

namespace Literal

/-- Equality is an equivalence among the literals of a class. -/
structure EqualityOn (domain : Literal → Prop) : Prop where
  refl : ∀ literal, domain literal → (literal == literal) = true
  symm : ∀ left right, domain left → domain right → (left == right) = true →
    (right == left) = true
  trans : ∀ left middle right, domain left → domain middle → domain right →
    (left == middle) = true → (middle == right) = true → (left == right) = true

/-- Two literals of a class that are equal. -/
def Similar (domain : Literal → Prop) (left right : Literal) : Prop :=
  domain left ∧ domain right ∧ (left == right) = true

variable {domain : Literal → Prop}

namespace EqualityOn

theorem similar_refl (equality : EqualityOn domain) {literal : Literal} (inside : domain literal) :
    Similar domain literal literal :=
  ⟨inside, inside, equality.refl literal inside⟩

theorem similar_symm (equality : EqualityOn domain) (left right : Literal)
    (similar : Similar domain left right) : Similar domain right left := by
  obtain ⟨leftInside, rightInside, same⟩ := similar
  exact ⟨rightInside, leftInside, equality.symm left right leftInside rightInside same⟩

theorem similar_trans (equality : EqualityOn domain) (left middle right : Literal)
    (first : Similar domain left middle) (second : Similar domain middle right) :
    Similar domain left right := by
  obtain ⟨leftInside, middleInside, one⟩ := first
  obtain ⟨-, rightInside, other⟩ := second
  exact ⟨leftInside, rightInside,
    equality.trans left middle right leftInside middleInside rightInside one other⟩

/-- It does not matter which of two literals is compared with the other. -/
theorem beq_comm (equality : EqualityOn domain) {left right : Literal} (leftInside : domain left)
    (rightInside : domain right) : (left == right) = (right == left) := by
  rw [Bool.eq_iff_iff]
  exact ⟨equality.symm left right leftInside rightInside,
    equality.symm right left rightInside leftInside⟩

/-- Equal literals compare alike with any other. -/
theorem beq_congr (equality : EqualityOn domain) {left right other : Literal}
    (leftInside : domain left) (rightInside : domain right) (otherInside : domain other)
    (same : (left == right) = true) : (left == other) = (right == other) := by
  rw [Bool.eq_iff_iff]
  have back := equality.symm left right leftInside rightInside same
  exact ⟨equality.trans right left other rightInside leftInside otherInside back,
    equality.trans left right other leftInside rightInside otherInside same⟩

/-- In a map with distinct keys an entry is known by its key. -/
theorem entry_unique (equality : EqualityOn domain) {entries : List MapEntry}
    (distinct : DistinctKeys (map entries)) {first second : MapEntry} (found : first ∈ entries)
    (listed : second ∈ entries) (similar : Similar domain first.key second.key) :
    first = second := by
  by_contra different
  have apart : entries.Pairwise fun one other => ¬ Similar domain one.key other.key := by
    refine List.Pairwise.imp ?_ distinct
    intro one other unequal similar
    rw [similar.2.2] at unequal
    exact Bool.noConfusion unequal
  have : Std.Symm fun one other : MapEntry => ¬ Similar domain one.key other.key :=
    ⟨fun one other apart back => apart (equality.similar_symm _ _ back)⟩
  exact apart.forall found listed different similar

/-- If every entry of a map is found in another, different entries are found for different ones. -/
theorem subperm_of_found (equality : EqualityOn domain) {left right : List MapEntry}
    (leftBelow : ∀ child ∈ (map left).children, domain child)
    (rightBelow : ∀ child ∈ (map right).children, domain child)
    (distinct : DistinctKeys (map left)) (found : MapEntry.allFoundIn left right = true) :
    ∃ middle, List.Forall₂ (MapEntry.Alike (Similar domain)) left middle ∧
      middle.Subperm right := by
  have partner : ∀ entry ∈ left, ∃ other ∈ right, entry.Alike (Similar domain) other := by
    intro entry listed
    obtain ⟨other, first, sameValue⟩ := MapEntry.allFoundIn_iff.mp found entry listed
    have there := List.mem_of_find?_eq_some first
    have sameKey := List.find?_some first
    refine ⟨other, there, ?_, ?_⟩
    · exact ⟨leftBelow _ (key_mem_children listed), rightBelow _ (key_mem_children there), sameKey⟩
    · exact ⟨leftBelow _ (value_mem_children listed), rightBelow _ (value_mem_children there),
        sameValue⟩
  choose! image there alike using partner
  refine ⟨left.map image, ?_, ?_⟩
  · rw [List.forall₂_map_right_iff, List.forall₂_same]
    exact alike
  · -- Entries with different keys are sent to different entries, as those have equal keys.
    have nodup : (left.map image).Nodup := by
      refine List.pairwise_map.mpr (List.Pairwise.imp_of_mem ?_ distinct)
      intro one other listed listedToo unequal collide
      have first := (alike one listed).1
      have second := (alike other listedToo).1
      rw [← collide] at second
      have similar :=
        equality.similar_trans _ _ _ first (equality.similar_symm _ _ second)
      rw [similar.2.2] at unequal
      exact Bool.noConfusion unequal
    have inside : left.map image ⊆ right := by
      intro entry listed
      obtain ⟨source, present, rfl⟩ := List.mem_map.mp listed
      exact there source present
    exact List.subperm_of_subset nodup inside

/-- If every entry of a map is found in one of the same size, the entries found are all there
are. -/
theorem entries_alike_of_found (equality : EqualityOn domain) {left right : List MapEntry}
    (leftBelow : ∀ child ∈ (map left).children, domain child)
    (rightBelow : ∀ child ∈ (map right).children, domain child)
    (distinct : DistinctKeys (map left)) (size : left.length = right.length)
    (found : MapEntry.allFoundIn left right = true) :
    ∃ middle, List.Forall₂ (MapEntry.Alike (Similar domain)) left middle ∧ middle.Perm right := by
  obtain ⟨middle, alike, inside⟩ := equality.subperm_of_found leftBelow rightBelow distinct found
  refine ⟨middle, alike, inside.perm_of_length_le ?_⟩
  exact Nat.le_of_eq (size.symm.trans alike.length_eq)

/-- An entry that is alike is the one that is found, since keys are distinct. -/
theorem entries_found_of_alike (equality : EqualityOn domain) {left middle right : List MapEntry}
    (rightBelow : ∀ child ∈ (map right).children, domain child)
    (distinct : DistinctKeys (map right))
    (alike : List.Forall₂ (MapEntry.Alike (Similar domain)) left middle)
    (order : middle.Perm right) : MapEntry.allFoundIn left right = true := by
  refine MapEntry.allFoundIn_iff.mpr fun entry listed => ?_
  obtain ⟨other, present, key, value⟩ := Pairing.partner alike listed
  have there := order.mem_iff.mp present
  cases first : right.find? fun candidate => entry.key == candidate.key with
  | none =>
    have absent := List.find?_eq_none.mp first other there
    exact (absent key.2.2).elim
  | some candidate =>
    have listed := List.mem_of_find?_eq_some first
    have sameKey := List.find?_some first
    have candidateKey : Similar domain entry.key candidate.key :=
      ⟨key.1, rightBelow _ (key_mem_children listed), sameKey⟩
    have similar :=
      equality.similar_trans _ _ _ (equality.similar_symm _ _ candidateKey) key
    have same := equality.entry_unique distinct listed there similar
    exact ⟨candidate, rfl, same ▸ value.2.2⟩

end EqualityOn

end Literal

/-- Among blocks over a class of literals, equality is likeness. -/
theorem Block.equal_iff_alike {domain : Literal → Prop} {left right : Block}
    (leftBelow : ∀ literal ∈ left.literals, domain literal)
    (rightBelow : ∀ literal ∈ right.literals, domain literal) :
    (left == right) = true ↔ left.Alike (Literal.Similar domain) right := by
  rw [Block.equal_iff]
  constructor
  · intro alike
    exact alike.mono fun one found other listed same =>
      ⟨leftBelow one found, rightBelow other listed, same⟩
  · intro alike
    exact alike.mono fun one _ other _ similar => similar.2.2

namespace Literal

theorem map_equal_iff {left right : List MapEntry} :
    (map left == map right) = true ↔
      left.length = right.length ∧ MapEntry.allFoundIn left right = true := by
  show (map left).equal (map right) = true ↔ _
  rw [Literal.equal, Bool.and_eq_true, beq_iff_eq]

theorem list_equal_iff {left right : List Literal} :
    (list left == list right) = true ↔
      List.Forall₂ (fun one other => (one == other) = true) left right := by
  show (list left).equal (list right) = true ↔ _
  rw [Literal.equal, equalLists_iff]

theorem closure_equal_iff {leftScope rightScope : String} {left right : List Parameter}
    {leftBody rightBody : Block} :
    (closure leftScope left leftBody == closure rightScope right rightBody) = true ↔
      leftScope = rightScope ∧
        List.Forall₂ (Parameter.Alike fun one other => (one == other) = true) left right ∧
          (leftBody == rightBody) = true := by
  show (closure leftScope left leftBody).equal (closure rightScope right rightBody) = true ↔ _
  rw [Literal.equal, Bool.and_eq_true, Bool.and_eq_true, beq_iff_eq,
    Parameter.equalLists_iff, and_assoc]
  rfl

theorem block_equal_iff {leftScope rightScope : String} {left right : Block} :
    (block leftScope left == block rightScope right) = true ↔
      leftScope = rightScope ∧ (left == right) = true := by
  show (block leftScope left).equal (block rightScope right) = true ↔ _
  rw [Literal.equal, Bool.and_eq_true, beq_iff_eq]
  rfl

theorem scalar_equal {literal : Literal} (scalar : literal.IsScalar) :
    (literal == literal) = true := by
  show literal.equal literal = true
  cases literal with
  | map _ | list _ | closure _ _ _ | block _ _ => exact scalar.elim
  | int _ | bigInt _ | boolean _ | bytes _ | double _ | text _ => simp [Literal.equal]

namespace EqualityOn

variable {domain : Literal → Prop}

/-- Literals with equal parts in the class are alike one level deep. -/
theorem alike_of_equal (equality : EqualityOn domain) {left right : Literal}
    (leftBelow : ∀ child ∈ left.children, domain child)
    (rightBelow : ∀ child ∈ right.children, domain child) (distinct : DistinctKeys left)
    (same : (left == right) = true) : Alike (Similar domain) left right := by
  fun_cases Literal.equal left right
  case case5 left right =>
    obtain ⟨size, found⟩ := map_equal_iff.mp same
    obtain ⟨middle, alike, order⟩ :=
      equality.entries_alike_of_found leftBelow rightBelow distinct size found
    exact .map alike order
  case case7 left right =>
    refine .list (Pairing.imp_of_mem (list_equal_iff.mp same) ?_)
    exact fun one found other listed same => ⟨leftBelow one found, rightBelow other listed, same⟩
  case case9 leftScope leftParameters leftBody rightScope rightParameters rightBody =>
    obtain ⟨rfl, parameters, body⟩ := closure_equal_iff.mp same
    refine .closure (Pairing.imp_of_mem parameters ?_) ?_
    · rintro ⟨name, fallback⟩ found ⟨otherName, otherFallback⟩ listed ⟨names, fallbacks⟩
      refine ⟨names, ?_⟩
      cases fallbacks with
      | some same =>
        exact .some ⟨leftBelow _ (fallback_mem_children found),
          rightBelow _ (fallback_mem_children listed), same⟩
      | none => exact .none
    · exact (Block.equal_iff_alike (fun _ found => leftBelow _ (pooled_mem_children found))
        (fun _ found => rightBelow _ (pooled_mem_children found))).mp body
  case case10 leftScope leftBody rightScope rightBody =>
    obtain ⟨rfl, body⟩ := block_equal_iff.mp same
    exact .block ((Block.equal_iff_alike leftBelow rightBelow).mp body)
  case case11 =>
    have unequal : (left == right) = false := by
      show left.equal right = false
      rw [Literal.equal] <;> assumption
    rw [unequal] at same
    exact Bool.noConfusion same
  all_goals
    change Literal.equal _ _ = true at same
    rw [Literal.equal, beq_iff_eq] at same
    subst same
    exact .scalar trivial

/-- Literals that are alike one level deep are equal. -/
theorem equal_of_alike (equality : EqualityOn domain) {left right : Literal}
    (rightBelow : ∀ child ∈ right.children, domain child) (distinct : DistinctKeys right)
    (alike : Alike (Similar domain) left right) : (left == right) = true := by
  cases alike with
  | scalar scalar => exact scalar_equal scalar
  | map entries order =>
    refine map_equal_iff.mpr ⟨entries.length_eq.trans order.length_eq, ?_⟩
    exact equality.entries_found_of_alike rightBelow distinct entries order
  | list items =>
    exact list_equal_iff.mpr (Pairing.imp_of_mem items fun _ _ _ _ similar => similar.2.2)
  | closure parameters body =>
    refine closure_equal_iff.mpr ⟨rfl, Pairing.imp_of_mem parameters ?_, Block.equal_iff.mpr ?_⟩
    · rintro ⟨name, fallback⟩ found ⟨otherName, otherFallback⟩ listed ⟨names, fallbacks⟩
      refine ⟨names, ?_⟩
      cases fallbacks with
      | some similar => exact .some similar.2.2
      | none => exact .none
    · exact body.mono fun _ _ _ _ similar => similar.2.2
  | block body =>
    exact block_equal_iff.mpr
      ⟨rfl, Block.equal_iff.mpr (body.mono fun _ _ _ _ similar => similar.2.2)⟩

end EqualityOn

/-! ## All literals -/

/-- The well-formed literals below a size. -/
def Within (size : Nat) (literal : Literal) : Prop := literal.WellFormed ∧ sizeOf literal < size

theorem Within.child {size : Nat} {literal child : Literal} (within : literal.Within (size + 1))
    (below : child ∈ literal.children) : child.Within size := by
  have smaller := sizeOf_child_lt below
  have bound := within.2
  exact ⟨within.1.child below, by omega⟩

/-- Equality is likeness one level deep if it is an equivalence below. -/
theorem equal_iff_alike {size : Nat} (equality : EqualityOn (Within size)) {left right : Literal}
    (leftWithin : left.Within (size + 1)) (rightWithin : right.Within (size + 1)) :
    (left == right) = true ↔ Alike (Similar (Within size)) left right :=
  ⟨equality.alike_of_equal (fun _ => leftWithin.child) (fun _ => rightWithin.child)
      leftWithin.1.here,
    equality.equal_of_alike (fun _ => rightWithin.child) rightWithin.1.here⟩

/-- Equality is an equivalence among the well-formed literals of every size. -/
theorem equalityOn_within (size : Nat) : EqualityOn (Within size) := by
  induction size with
  | zero =>
    refine ⟨fun literal within => ?_, fun left _ within => ?_, fun left _ _ within => ?_⟩
    · exact absurd within.2 (Nat.not_lt_zero _)
    · exact absurd within.2 (Nat.not_lt_zero _)
    · exact absurd within.2 (Nat.not_lt_zero _)
  | succ size equality =>
    refine ⟨fun literal within => ?_, fun left right leftWithin rightWithin same => ?_,
      fun left middle right leftWithin middleWithin rightWithin first second => ?_⟩
    · rw [equal_iff_alike equality within within]
      exact .refl fun child below => equality.similar_refl (within.child below)
    · rw [equal_iff_alike equality leftWithin rightWithin] at same
      rw [equal_iff_alike equality rightWithin leftWithin]
      exact same.symm equality.similar_symm
    · rw [equal_iff_alike equality leftWithin middleWithin] at first
      rw [equal_iff_alike equality middleWithin rightWithin] at second
      rw [equal_iff_alike equality leftWithin rightWithin]
      exact first.trans equality.similar_trans second

/-- **Equality is an equivalence on well-formed literals.** -/
theorem equalityOn_wellFormed : EqualityOn WellFormed where
  refl literal well := (equalityOn_within (sizeOf literal + 1)).refl literal ⟨well, by omega⟩
  symm left right leftWell rightWell same :=
    (equalityOn_within (sizeOf left + sizeOf right + 1)).symm left right ⟨leftWell, by omega⟩
      ⟨rightWell, by omega⟩ same
  trans left middle right leftWell middleWell rightWell first second :=
    (equalityOn_within (sizeOf left + sizeOf middle + sizeOf right + 1)).trans left middle right
      ⟨leftWell, by omega⟩ ⟨middleWell, by omega⟩ ⟨rightWell, by omega⟩ first second

/-- Two well-formed literals that are equal. -/
abbrev Same : Literal → Literal → Prop := Similar WellFormed

/-- Well-formed literals are equal exactly if their parts are, up to the order of maps. -/
theorem same_iff_alike {left right : Literal} :
    Same left right ↔ left.WellFormed ∧ right.WellFormed ∧ Alike Same left right := by
  constructor
  · rintro ⟨leftWell, rightWell, same⟩
    exact ⟨leftWell, rightWell, equalityOn_wellFormed.alike_of_equal (fun _ => leftWell.child)
      (fun _ => rightWell.child) leftWell.here same⟩
  · rintro ⟨leftWell, rightWell, alike⟩
    exact ⟨leftWell, rightWell,
      equalityOn_wellFormed.equal_of_alike (fun _ => rightWell.child) rightWell.here alike⟩

/-- Among well-formed keys, to be distinct is to be pairwise not the same. -/
theorem distinctKeys_iff {entries : List MapEntry}
    (well : ∀ entry ∈ entries, entry.key.WellFormed) :
    DistinctKeys (map entries) ↔
      entries.Pairwise fun first second => ¬ Same first.key second.key := by
  refine List.Pairwise.iff_of_mem fun {first second} found listed => ?_
  rw [← Bool.not_eq_true, not_iff_not]
  constructor
  · intro same
    exact ⟨well first found, well second listed, same⟩
  · intro same
    exact same.2.2

/-- Keys stay distinct when the entries of a map are replaced by like ones in another order. -/
theorem distinctKeys_of_alike {left middle right : List MapEntry} (well : (map left).WellFormed)
    (alike : List.Forall₂ (MapEntry.Alike Same) left middle) (order : middle.Perm right) :
    DistinctKeys (map right) := by
  have leftApart := (distinctKeys_iff fun entry found => well.child (key_mem_children found)).mp
    well.here
  have middleApart : middle.Pairwise fun first second => ¬ Same first.key second.key := by
    refine Pairing.pairwise alike leftApart ?_
    intro first second other another one two apart same
    have back := equalityOn_wellFormed.similar_symm _ _ two.1
    exact apart (equalityOn_wellFormed.similar_trans _ _ _ one.1
      (equalityOn_wellFormed.similar_trans _ _ _ same back))
  have symmetric : ∀ first second : MapEntry, ¬ Same first.key second.key →
      ¬ Same second.key first.key := fun first second apart same =>
    apart (equalityOn_wellFormed.similar_symm _ _ same)
  have rightApart := (order.pairwise_iff @symmetric).mp middleApart
  refine (distinctKeys_iff fun entry found => ?_).mpr rightApart
  obtain ⟨earlier, -, key, -⟩ := Pairing.origin alike (order.mem_iff.mpr found)
  exact key.2.1

/-- What is like a well-formed literal is well formed as well, and equal to it. -/
theorem same_of_alike {left right : Literal} (well : left.WellFormed)
    (alike : Alike Same left right) : Same left right := by
  have below : ∀ child ∈ right.children, child.WellFormed :=
    alike.children_right fun _ _ same => same.2.1
  refine same_iff_alike.mpr ⟨well, WellFormed.iff.mpr ⟨?_, below⟩, alike⟩
  cases alike with
  | scalar _ => exact well.here
  | map entries order => exact distinctKeys_of_alike well entries order
  | list _ | closure _ _ | block _ => trivial

end Literal

end CompiledScript
