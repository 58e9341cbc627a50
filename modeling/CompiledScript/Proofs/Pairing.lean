import Mathlib.Data.List.Forall2
import Mathlib.Data.List.Perm.Basic

/-!
# Lists paired item by item

Values that were written and values that were read correspond item by item, and
so do the entries of equal maps once these have been put in the same order.  This
module collects what follows for two lists whose items are related pairwise.

The last section is about lists in order.  If no item of a list may stand both
before and behind another, then only one arrangement of the list is in order, so
lists that correspond up to their arrangement correspond item by item as soon as
both are in order.
-/

set_option autoImplicit false

namespace CompiledScript.Pairing

variable {α β γ : Type}

theorem beq_iff [BEq α] {left right : List α} :
    (left == right) = true ↔ List.Forall₂ (fun one other => (one == other) = true) left right := by
  induction left generalizing right with
  | nil =>
    cases right with
    | nil => simp
    | cons other rest => simp
  | cons one lefts ih =>
    cases right with
    | nil => simp
    | cons other rest => rw [List.cons_beq_cons, Bool.and_eq_true, ih, List.forall₂_cons]

/-- Every item on the left has a partner on the right. -/
theorem partner {related : α → β → Prop} {left : List α} {right : List β}
    (paired : List.Forall₂ related left right) {item : α} (found : item ∈ left) :
    ∃ other ∈ right, related item other := by
  induction paired with
  | nil => cases found
  | cons first _ ih =>
    rcases List.mem_cons.mp found with rfl | found
    · exact ⟨_, List.mem_cons_self, first⟩
    · obtain ⟨other, listed, holds⟩ := ih found
      exact ⟨other, List.mem_cons_of_mem _ listed, holds⟩

theorem imp_of_mem {related weaker : α → β → Prop} {left : List α} {right : List β}
    (paired : List.Forall₂ related left right)
    (implied : ∀ first ∈ left, ∀ second ∈ right, related first second → weaker first second) :
    List.Forall₂ weaker left right := by
  induction paired with
  | nil => exact .nil
  | cons first _ ih =>
    refine .cons (implied _ List.mem_cons_self _ List.mem_cons_self first) (ih ?_)
    intro item found other listed
    exact implied item (List.mem_cons_of_mem _ found) other (List.mem_cons_of_mem _ listed)

theorem congr {related other : α → β → Prop} {left : List α} {right : List β}
    (same : ∀ first ∈ left, ∀ second ∈ right, related first second ↔ other first second) :
    List.Forall₂ related left right ↔ List.Forall₂ other left right := by
  constructor
  · intro paired
    exact imp_of_mem paired fun first found second listed => (same first found second listed).mp
  · intro paired
    exact imp_of_mem paired fun first found second listed => (same first found second listed).mpr

theorem swap {related : α → β → Prop} {turned : β → α → Prop} {left : List α} {right : List β}
    (paired : List.Forall₂ related left right)
    (turn : ∀ first second, related first second → turned second first) :
    List.Forall₂ turned right left := by
  induction paired with
  | nil => exact .nil
  | cons first _ ih => exact .cons (turn _ _ first) ih

theorem comp {first : α → β → Prop} {second : β → γ → Prop} {joined : α → γ → Prop}
    {left : List α} {middle : List β} {right : List γ} (paired : List.Forall₂ first left middle)
    (further : List.Forall₂ second middle right)
    (join : ∀ item between other, first item between → second between other →
      joined item other) :
    List.Forall₂ joined left right := by
  induction paired generalizing right with
  | nil =>
    obtain _ | _ := further
    exact .nil
  | cons here _ ih =>
    obtain _ | ⟨there, others⟩ := further
    exact .cons (join _ _ _ here there) (ih others)

/-- What a list put together from two corresponds to falls into two parts as well. -/
theorem split {related : α → β → Prop} {front back : List α} {right : List β}
    (paired : List.Forall₂ related (front ++ back) right) :
    ∃ one other, right = one ++ other ∧ List.Forall₂ related front one ∧
      List.Forall₂ related back other := by
  have start := List.forall₂_take front.length paired
  have finish := List.forall₂_drop front.length paired
  rw [List.take_left] at start
  rw [List.drop_left] at finish
  exact ⟨_, _, (List.take_append_drop front.length right).symm, start, finish⟩

/-- Pairs correspond to a list to which their first parts correspond and of which their second
parts are a view. -/
theorem of_parts {related : α → γ → Prop} {view : γ → β} {pairs : List (α × β)} {left : List α}
    {right : List γ} (first : pairs.map Prod.fst = left)
    (second : pairs.map Prod.snd = right.map view) (paired : List.Forall₂ related left right) :
    List.Forall₂ (fun pair other => related pair.1 other ∧ pair.2 = view other) pairs right := by
  subst first
  have firsts := List.forall₂_map_left_iff.mp paired
  induction firsts with
  | nil => exact .nil
  | cons here _ ih =>
    obtain ⟨same, rest⟩ := List.cons.inj second
    obtain _ | ⟨-, others⟩ := paired
    exact .cons ⟨here, same⟩ (ih rest others)

/-- Items can be given partners out of two lists, one for those with a property and one for the
others. -/
theorem exists_parts (chosen : α → Bool) (items : List α) {ours theirs : List β}
    (first : (items.filter chosen).length = ours.length)
    (second : (items.filter fun item => !chosen item).length = theirs.length) :
    ∃ pairs : List (α × β), pairs.map Prod.fst = items ∧
      (pairs.filter fun pair => chosen pair.1).map Prod.snd = ours ∧
        (pairs.filter fun pair => !chosen pair.1).map Prod.snd = theirs := by
  induction items generalizing ours theirs with
  | nil =>
    obtain rfl := List.length_eq_zero_iff.mp first.symm
    obtain rfl := List.length_eq_zero_iff.mp second.symm
    exact ⟨[], rfl, rfl, rfl⟩
  | cons item items ih =>
    cases sort : chosen item with
    | true =>
      simp only [List.filter_cons, sort, if_true, List.length_cons] at first
      simp only [List.filter_cons, sort, Bool.not_true, Bool.false_eq_true, if_false] at second
      obtain ⟨partner, ours, rfl⟩ := List.exists_cons_of_length_eq_add_one first.symm
      obtain ⟨pairs, rfl, rfl, rfl⟩ := ih (Nat.succ.inj first) second
      exact ⟨(item, partner) :: pairs, rfl, by simp [sort], by simp [sort]⟩
    | false =>
      simp only [List.filter_cons, sort, Bool.false_eq_true, if_false] at first
      simp only [List.filter_cons, sort, Bool.not_false, if_true, List.length_cons] at second
      obtain ⟨partner, theirs, rfl⟩ := List.exists_cons_of_length_eq_add_one second.symm
      obtain ⟨pairs, rfl, rfl, rfl⟩ := ih first (Nat.succ.inj second)
      exact ⟨(item, partner) :: pairs, rfl, by simp [sort], by simp [sort]⟩

/-- Every item on the right is the partner of one on the left. -/
theorem origin {related : α → β → Prop} {left : List α} {right : List β}
    (paired : List.Forall₂ related left right) {other : β} (listed : other ∈ right) :
    ∃ item ∈ left, related item other :=
  partner (swap paired fun _ _ holds => holds) listed

/-- Partners stand at the same places. -/
theorem origin_at {related : α → β → Prop} {left : List α} {right : List β}
    (paired : List.Forall₂ related left right) {index : Nat} {other : β}
    (stands : right[index]? = some other) : ∃ item, left[index]? = some item ∧ related item other := by
  induction paired generalizing index with
  | nil => cases stands
  | cons first _ ih =>
    cases index with
    | zero =>
      cases stands
      exact ⟨_, rfl, first⟩
    | succ index => exact ih stands

/-- What holds between any two items on the left holds between their partners. -/
theorem pairwise {related : α → β → Prop} {ordered : α → α → Prop} {carried : β → β → Prop}
    {left : List α} {right : List β} (paired : List.Forall₂ related left right)
    (pairs : left.Pairwise ordered)
    (carry : ∀ first second other another, related first other → related second another →
      ordered first second → carried other another) :
    right.Pairwise carried := by
  induction paired with
  | nil => exact .nil
  | cons here others ih =>
    obtain ⟨before, pairs⟩ := List.pairwise_cons.mp pairs
    refine List.pairwise_cons.mpr ⟨fun other listed => ?_, ih pairs⟩
    obtain ⟨item, found, there⟩ := origin others listed
    exact carry _ _ _ _ here there (before item found)

/-! ## Arrangements -/

/-- A rearrangement on the right can be made on the left first. -/
theorem perm_left {related : α → β → Prop} {left : List α} {middle right : List β}
    (paired : List.Forall₂ related left middle) (order : middle.Perm right) :
    ∃ arranged, left.Perm arranged ∧ List.Forall₂ related arranged right := by
  obtain ⟨arranged, holds, back⟩ :=
    List.perm_comp_forall₂ order.symm (swap paired fun _ _ holds => holds)
  exact ⟨arranged, back.symm, swap holds fun _ _ holds => holds⟩

/-- A rearrangement on the left can be made on the right afterwards. -/
theorem perm_right {related : α → β → Prop} {left middle : List α} {right : List β}
    (order : left.Perm middle) (paired : List.Forall₂ related middle right) :
    ∃ arranged, List.Forall₂ related left arranged ∧ arranged.Perm right :=
  List.perm_comp_forall₂ order paired

/-- Lists in order that correspond up to their arrangement correspond item by item. -/
theorem of_ordered {related : α → β → Prop} {before : α → α → Prop} {after : β → β → Prop}
    {left : List α} {middle right : List β} (paired : List.Forall₂ related left middle)
    (order : middle.Perm right) (leftOrdered : left.Pairwise before)
    (rightOrdered : right.Pairwise after)
    (carry : ∀ first second other another, related first other → related second another →
      before first second → after other another)
    (asymm : ∀ first second, after first second → ¬ after second first) :
    List.Forall₂ related left right := by
  have middleOrdered : middle.Pairwise after := pairwise paired leftOrdered carry
  have same : middle = right :=
    order.eq_of_pairwise (fun first second _ _ one other => (asymm first second one other).elim)
      middleOrdered rightOrdered
  rwa [same] at paired

end CompiledScript.Pairing
