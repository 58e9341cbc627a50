import CompiledScript.Proofs.Literal.Tree
import CompiledScript.Proofs.Pairing

/-!
# Likeness one level deep

Observational equality is defined by recursion through maps, lists, parameters
and pools at once.  Here one step of it is taken apart from the recursion: two
literals are alike when they are of the same kind and their parts correspond under
a given relation on the literals below.  For maps the entries correspond after
those of one map have been put in another order.

A step passes on what the relation has: likeness is symmetric or transitive if the
relation is, and every literal is like itself if the relation is reflexive on the
literals below it.
-/

set_option autoImplicit false

namespace CompiledScript

/-- Entries whose keys and whose values are related. -/
def MapEntry.Alike (related : Literal → Literal → Prop) (left right : MapEntry) : Prop :=
  related left.key right.key ∧ related left.value right.value

/-- Parameters of one name that both have related values to fall back to, or both none. -/
def Parameter.Alike (related : Literal → Literal → Prop) (left right : Parameter) : Prop :=
  left.name = right.name ∧ Option.Rel related left.fallback right.fallback

/-- Blocks that differ at most in related literals and in how the locals are recorded. -/
structure Block.Alike (related : Literal → Literal → Prop) (left right : Block) : Prop where
  code : left.code = right.code
  literals : List.Forall₂ related left.literals right.literals
  auxiliaries : left.auxiliaries = right.auxiliaries
  exceptions : left.exceptions = right.exceptions
  maxStack : left.maxStack = right.maxStack
  localCount : left.localCount = right.localCount

namespace Literal

/-- A literal that opens no level of nesting. -/
def IsScalar : Literal → Prop
  | map _ | list _ | closure _ _ _ | block _ _ => False
  | _ => True

theorem children_of_isScalar {literal : Literal} (scalar : literal.IsScalar) :
    literal.children = [] := by
  cases literal with
  | map _ | list _ | closure _ _ _ | block _ _ => exact scalar.elim
  | int _ | bigInt _ | boolean _ | bytes _ | double _ | text _ => rfl

/-- Literals of one kind whose parts correspond. -/
inductive Alike (related : Literal → Literal → Prop) : Literal → Literal → Prop where
  | scalar {literal : Literal} (scalar : literal.IsScalar) : Alike related literal literal
  | map {left middle right : List MapEntry}
      (entries : List.Forall₂ (MapEntry.Alike related) left middle) (order : middle.Perm right) :
      Alike related (map left) (map right)
  | list {left right : List Literal} (items : List.Forall₂ related left right) :
      Alike related (list left) (list right)
  | closure {scope : String} {left right : List Parameter} {leftBody rightBody : Block}
      (parameters : List.Forall₂ (Parameter.Alike related) left right)
      (body : leftBody.Alike related rightBody) :
      Alike related (closure scope left leftBody) (closure scope right rightBody)
  | block {scope : String} {left right : Block} (body : left.Alike related right) :
      Alike related (block scope left) (block scope right)

end Literal

variable {related weaker : Literal → Literal → Prop}

/-! ## What a step passes on -/

namespace MapEntry.Alike

theorem symm (symm : ∀ one other : Literal, related one other → related other one)
    {left right : MapEntry} (alike : left.Alike related right) : right.Alike related left :=
  ⟨symm _ _ alike.1, symm _ _ alike.2⟩

theorem trans
    (trans : ∀ one other another : Literal, related one other → related other another →
      related one another)
    {left middle right : MapEntry} (first : left.Alike related middle)
    (second : middle.Alike related right) : left.Alike related right :=
  ⟨trans _ _ _ first.1 second.1, trans _ _ _ first.2 second.2⟩

end MapEntry.Alike

namespace Parameter.Alike

theorem symm (symm : ∀ one other : Literal, related one other → related other one)
    {left right : Parameter} (alike : left.Alike related right) : right.Alike related left := by
  obtain ⟨name, fallback⟩ := alike
  refine ⟨name.symm, ?_⟩
  cases left with
  | mk leftName leftFallback =>
    cases right with
    | mk rightName rightFallback =>
      cases fallback with
      | some same => exact .some (symm _ _ same)
      | none => exact .none

theorem trans
    (trans : ∀ one other another : Literal, related one other → related other another →
      related one another)
    {left middle right : Parameter} (first : left.Alike related middle)
    (second : middle.Alike related right) : left.Alike related right := by
  obtain ⟨leftName, leftFallback⟩ := left
  obtain ⟨middleName, middleFallback⟩ := middle
  obtain ⟨rightName, rightFallback⟩ := right
  obtain ⟨firstName, firstFallback⟩ := first
  obtain ⟨secondName, secondFallback⟩ := second
  refine ⟨firstName.trans secondName, ?_⟩
  cases firstFallback with
  | some one =>
    cases secondFallback with
    | some other => exact .some (trans _ _ _ one other)
  | none =>
    cases secondFallback with
    | none => exact .none

end Parameter.Alike

namespace Block.Alike

theorem mono {left right : Block} (alike : left.Alike related right)
    (implied : ∀ one ∈ left.literals, ∀ other ∈ right.literals,
      related one other → weaker one other) : left.Alike weaker right :=
  { alike with literals := Pairing.imp_of_mem alike.literals implied }

theorem refl {block : Block} (refl : ∀ literal ∈ block.literals, related literal literal) :
    block.Alike related block :=
  ⟨rfl, List.forall₂_same.mpr refl, rfl, rfl, rfl, rfl⟩

theorem symm (symm : ∀ one other : Literal, related one other → related other one)
    {left right : Block} (alike : left.Alike related right) : right.Alike related left where
  code := alike.code.symm
  literals := Pairing.swap alike.literals symm
  auxiliaries := alike.auxiliaries.symm
  exceptions := alike.exceptions.symm
  maxStack := alike.maxStack.symm
  localCount := alike.localCount.symm

theorem trans
    (trans : ∀ one other another : Literal, related one other → related other another →
      related one another)
    {left middle right : Block} (first : left.Alike related middle)
    (second : middle.Alike related right) : left.Alike related right where
  code := first.code.trans second.code
  literals := Pairing.comp first.literals second.literals trans
  auxiliaries := first.auxiliaries.trans second.auxiliaries
  exceptions := first.exceptions.trans second.exceptions
  maxStack := first.maxStack.trans second.maxStack
  localCount := first.localCount.trans second.localCount

end Block.Alike

namespace Literal.Alike

/-- A literal is like itself if the literals below it are related to themselves. -/
theorem refl {literal : Literal} (refl : ∀ child ∈ literal.children, related child child) :
    Alike related literal literal := by
  cases literal with
  | map entries =>
    refine .map (List.forall₂_same.mpr fun entry found => ?_) (List.Perm.refl entries)
    exact ⟨refl _ (key_mem_children found), refl _ (value_mem_children found)⟩
  | list items => exact .list (List.forall₂_same.mpr refl)
  | closure scope parameters body =>
    refine .closure (List.forall₂_same.mpr fun parameter found => ⟨rfl, ?_⟩)
      (.refl fun literal found => refl _ (pooled_mem_children found))
    obtain ⟨name, fallback⟩ := parameter
    cases fallback with
    | some fallback => exact .some (refl _ (fallback_mem_children found))
    | none => exact .none
  | block scope body => exact .block (.refl refl)
  | int _ | bigInt _ | boolean _ | bytes _ | double _ | text _ => exact .scalar trivial

theorem symm (symm : ∀ one other : Literal, related one other → related other one)
    {left right : Literal} (alike : Alike related left right) : Alike related right left := by
  cases alike with
  | scalar scalar => exact .scalar scalar
  | map entries order =>
    obtain ⟨arranged, back, turned⟩ := Pairing.perm_left entries order
    exact .map (Pairing.swap turned fun _ _ => MapEntry.Alike.symm symm) back.symm
  | list items => exact .list (Pairing.swap items symm)
  | closure parameters body =>
    exact .closure (Pairing.swap parameters fun _ _ => Parameter.Alike.symm symm)
      (Block.Alike.symm symm body)
  | block body => exact .block (Block.Alike.symm symm body)

theorem trans
    (trans : ∀ one other another : Literal, related one other → related other another →
      related one another)
    {left middle right : Literal} (first : Alike related left middle)
    (second : Alike related middle right) : Alike related left right := by
  cases first with
  | scalar scalar => exact second
  | map entries order =>
    cases second with
    | scalar scalar => exact scalar.elim
    | map furtherEntries furtherOrder =>
      obtain ⟨arranged, further, back⟩ := Pairing.perm_right order furtherEntries
      exact .map (Pairing.comp entries further fun _ _ _ => MapEntry.Alike.trans trans)
        (back.trans furtherOrder)
  | list items =>
    cases second with
    | scalar scalar => exact scalar.elim
    | list further => exact .list (Pairing.comp items further trans)
  | closure parameters body =>
    cases second with
    | scalar scalar => exact scalar.elim
    | closure furtherParameters furtherBody =>
      exact .closure
        (Pairing.comp parameters furtherParameters fun _ _ _ => Parameter.Alike.trans trans)
        (Block.Alike.trans trans body furtherBody)
  | block body =>
    cases second with
    | scalar scalar => exact scalar.elim
    | block further => exact .block (Block.Alike.trans trans body further)

/-- A relation may be replaced by one that follows from it on the literals below. -/
theorem mono {left right : Literal} (alike : Alike related left right)
    (implied : ∀ one ∈ left.children, ∀ other ∈ right.children,
      related one other → weaker one other) : Alike weaker left right := by
  cases alike with
  | scalar scalar => exact .scalar scalar
  | map entries order =>
    refine .map (Pairing.imp_of_mem entries fun entry found other listed same => ?_) order
    have listed := order.mem_iff.mp listed
    exact ⟨implied _ (key_mem_children found) _ (key_mem_children listed) same.1,
      implied _ (value_mem_children found) _ (value_mem_children listed) same.2⟩
  | list items => exact .list (Pairing.imp_of_mem items implied)
  | closure parameters body =>
    refine .closure (Pairing.imp_of_mem parameters fun entry found other listed same => ?_)
      (body.mono fun one found other listed =>
        implied one (pooled_mem_children found) other (pooled_mem_children listed))
    obtain ⟨name, fallback⟩ := entry
    obtain ⟨otherName, otherFallback⟩ := other
    refine ⟨same.1, ?_⟩
    obtain ⟨-, fallbacks⟩ := same
    cases fallbacks with
    | some related =>
      exact .some (implied _ (fallback_mem_children found) _ (fallback_mem_children listed) related)
    | none => exact .none
  | block body => exact .block (body.mono implied)

/-- What holds of everything that is related to something holds of the literals below. -/
theorem children_right {property : Literal → Prop} {left right : Literal}
    (alike : Alike related left right)
    (implied : ∀ one other : Literal, related one other → property other) :
    ∀ child ∈ right.children, property child := by
  intro child below
  cases alike with
  | scalar scalar =>
    rw [children_of_isScalar scalar] at below
    exact absurd below List.not_mem_nil
  | map entries order =>
    obtain ⟨entry, listed, side⟩ := mem_children_map.mp below
    obtain ⟨other, -, key, value⟩ := Pairing.origin entries (order.mem_iff.mpr listed)
    rcases side with rfl | rfl
    · exact implied _ _ key
    · exact implied _ _ value
  | list items =>
    obtain ⟨other, -, same⟩ := Pairing.origin items below
    exact implied _ _ same
  | closure parameters body =>
    rcases List.mem_append.mp below with found | found
    · obtain ⟨⟨name, fallback⟩, listed, rfl⟩ := List.mem_filterMap.mp found
      obtain ⟨⟨otherName, otherFallback⟩, -, -, fallbacks⟩ := Pairing.origin parameters listed
      cases fallbacks with
      | some same => exact implied _ _ same
    · obtain ⟨other, -, same⟩ := Pairing.origin body.literals found
      exact implied _ _ same
  | block body =>
    obtain ⟨other, -, same⟩ := Pairing.origin body.literals below
    exact implied _ _ same

end Literal.Alike

end CompiledScript
