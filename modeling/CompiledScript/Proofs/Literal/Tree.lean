import CompiledScript.Literal.Equality

/-!
# Literals as trees

Literals hold literals in many places: as the keys and values of maps, the items
of lists, the values that the parameters of a lambda fall back to, and the pools
of blocks.  Whatever is said of a literal and of everything inside it is said
here once, through the list of the literals one level below.

Induction on a literal then has one step, from the literals below to the literal.
A property that holds throughout a literal holds of it and throughout everything
one level below it.  The well-formed literals are the ones in which, throughout,
no map has two equal keys; these are the literals that can be built, since a map
takes in its entries one after the other and replaces a key that is there.
-/

set_option autoImplicit false

namespace CompiledScript

namespace Literal

/-- The literals one level below a literal. -/
def children : Literal → List Literal
  | map entries => entries.flatMap fun entry => [entry.key, entry.value]
  | list items => items
  | closure _ parameters body => parameters.filterMap Parameter.fallback ++ body.literals
  | block _ body => body.literals
  | _ => []

theorem mem_children_map {entries : List MapEntry} {child : Literal} :
    child ∈ (map entries).children ↔
      ∃ entry ∈ entries, child = entry.key ∨ child = entry.value := by
  simp [children, List.mem_flatMap]

theorem key_mem_children {entries : List MapEntry} {entry : MapEntry} (found : entry ∈ entries) :
    entry.key ∈ (map entries).children :=
  mem_children_map.mpr ⟨entry, found, .inl rfl⟩

theorem value_mem_children {entries : List MapEntry} {entry : MapEntry}
    (found : entry ∈ entries) : entry.value ∈ (map entries).children :=
  mem_children_map.mpr ⟨entry, found, .inr rfl⟩

theorem fallback_mem_children {scope : String} {parameters : List Parameter} {body : Block}
    {name : String} {fallback : Literal} (found : ⟨name, some fallback⟩ ∈ parameters) :
    fallback ∈ (closure scope parameters body).children :=
  List.mem_append_left _ (List.mem_filterMap.mpr ⟨_, found, rfl⟩)

theorem pooled_mem_children {scope : String} {parameters : List Parameter} {body : Block}
    {literal : Literal} (found : literal ∈ body.literals) :
    literal ∈ (closure scope parameters body).children :=
  List.mem_append_right _ found

theorem forall_mem_children_closure {property : Literal → Prop} {scope : String}
    {parameters : List Parameter} {body : Block} :
    (∀ child ∈ (closure scope parameters body).children, property child) ↔
      (∀ parameter ∈ parameters, ∀ fallback ∈ parameter.fallback, property fallback) ∧
        ∀ literal ∈ body.literals, property literal := by
  rw [children, List.forall_mem_append]
  refine and_congr_left fun _ => ⟨fun below parameter found fallback same => ?_, ?_⟩
  · exact below fallback (List.mem_filterMap.mpr ⟨parameter, found, same⟩)
  · intro fallbacks child below
    obtain ⟨parameter, found, same⟩ := List.mem_filterMap.mp below
    exact fallbacks parameter found child same

/-! ## Induction -/

theorem sizeOf_pooled_lt {body : Block} {literal : Literal} (found : literal ∈ body.literals) :
    sizeOf literal < sizeOf body := by
  cases body with
  | mk code literals auxiliaries exceptions maxStack compiledLocals localTable =>
    have smaller := List.sizeOf_lt_of_mem found
    simp only [Block.mk.sizeOf_spec] at smaller ⊢
    omega

/-- A literal is larger than each literal below it. -/
theorem sizeOf_child_lt {literal child : Literal} (below : child ∈ literal.children) :
    sizeOf child < sizeOf literal := by
  cases literal with
  | map entries =>
    obtain ⟨⟨key, value⟩, found, side⟩ := mem_children_map.mp below
    have smaller := List.sizeOf_lt_of_mem found
    simp only [MapEntry.mk.sizeOf_spec] at smaller
    simp only [map.sizeOf_spec]
    rcases side with rfl | rfl
    · omega
    · omega
  | list items =>
    have smaller := List.sizeOf_lt_of_mem (show child ∈ items from below)
    simp only [list.sizeOf_spec]
    omega
  | closure scope parameters body =>
    simp only [closure.sizeOf_spec]
    rcases List.mem_append.mp below with found | found
    · obtain ⟨⟨name, fallback⟩, listed, rfl⟩ := List.mem_filterMap.mp found
      have smaller := List.sizeOf_lt_of_mem listed
      simp only [Parameter.mk.sizeOf_spec, Option.some.sizeOf_spec] at smaller
      omega
    · have smaller := sizeOf_pooled_lt found
      omega
  | block scope body =>
    have smaller := sizeOf_pooled_lt (show child ∈ body.literals from below)
    simp only [block.sizeOf_spec]
    omega
  | int _ | bigInt _ | boolean _ | bytes _ | double _ | text _ => simp [children] at below

/-! ## Properties throughout a literal -/

/-- A property holds of a literal and of every literal inside it. -/
inductive Throughout (property : Literal → Prop) : Literal → Prop where
  | intro {literal : Literal} (here : property literal)
      (below : ∀ child ∈ literal.children, Throughout property child) :
      Throughout property literal

namespace Throughout

variable {property : Literal → Prop}

theorem here {literal : Literal} (holds : Throughout property literal) : property literal := by
  obtain ⟨here, -⟩ := holds
  exact here

theorem child {literal child : Literal} (holds : Throughout property literal)
    (found : child ∈ literal.children) : Throughout property child := by
  obtain ⟨-, below⟩ := holds
  exact below child found

theorem iff {literal : Literal} :
    Throughout property literal ↔
      property literal ∧ ∀ child ∈ literal.children, Throughout property child :=
  ⟨fun holds => ⟨holds.here, fun _ => holds.child⟩, fun holds => .intro holds.1 holds.2⟩

/-- What is decided of every literal is decided throughout a literal. -/
instance decidable (property : Literal → Prop) [DecidablePred property] (literal : Literal) :
    Decidable (Throughout property literal) :=
  haveI (child : {child // child ∈ literal.children}) : Decidable (Throughout property child.1) :=
    decidable property child.1
  decidable_of_iff
    (property literal ∧ ∀ child ∈ literal.children.attach, Throughout property child.1)
    ((and_congr_right fun _ => by simp).trans Throughout.iff.symm)
termination_by sizeOf literal
decreasing_by exact sizeOf_child_lt child.2

/-! ### One kind at a time -/

theorem leaf {literal : Literal} (leaf : literal.children = []) :
    Throughout property literal ↔ property literal := by
  rw [Throughout.iff, leaf]
  exact and_iff_left fun _ below => absurd below List.not_mem_nil

@[simp] theorem int {value : Int64} :
    Throughout property (int value) ↔ property (Literal.int value) := leaf rfl

@[simp] theorem bigInt {value : Int} :
    Throughout property (bigInt value) ↔ property (Literal.bigInt value) := leaf rfl

@[simp] theorem boolean {value : Bool} :
    Throughout property (boolean value) ↔ property (Literal.boolean value) := leaf rfl

@[simp] theorem bytes {value : Bytes} :
    Throughout property (bytes value) ↔ property (Literal.bytes value) := leaf rfl

@[simp] theorem double {bits : UInt64} :
    Throughout property (double bits) ↔ property (Literal.double bits) := leaf rfl

@[simp] theorem text {value : String} :
    Throughout property (text value) ↔ property (Literal.text value) := leaf rfl

@[simp] theorem map {entries : List MapEntry} :
    Throughout property (map entries) ↔
      property (Literal.map entries) ∧
        ∀ entry ∈ entries, Throughout property entry.key ∧ Throughout property entry.value := by
  rw [Throughout.iff]
  refine and_congr Iff.rfl ⟨fun below entry found => ?_, fun parts child below => ?_⟩
  · exact ⟨below _ (key_mem_children found), below _ (value_mem_children found)⟩
  · obtain ⟨entry, found, rfl | rfl⟩ := mem_children_map.mp below
    · exact (parts entry found).1
    · exact (parts entry found).2

@[simp] theorem list {items : List Literal} :
    Throughout property (list items) ↔
      property (Literal.list items) ∧ ∀ item ∈ items, Throughout property item :=
  Throughout.iff

@[simp] theorem closure {scope : String} {parameters : List Parameter} {body : Block} :
    Throughout property (closure scope parameters body) ↔
      property (Literal.closure scope parameters body) ∧
        (∀ parameter ∈ parameters, ∀ fallback ∈ parameter.fallback,
          Throughout property fallback) ∧
          ∀ literal ∈ body.literals, Throughout property literal := by
  rw [Throughout.iff, forall_mem_children_closure]

@[simp] theorem block {scope : String} {body : Block} :
    Throughout property (block scope body) ↔
      property (Literal.block scope body) ∧
        ∀ literal ∈ body.literals, Throughout property literal :=
  Throughout.iff

end Throughout

/-- No two keys of a map are equal. -/
def DistinctKeys : Literal → Prop
  | map entries => entries.Pairwise fun first second => (first.key == second.key) = false
  | _ => True

instance decidableDistinctKeys : DecidablePred DistinctKeys
  | map entries =>
    inferInstanceAs (Decidable (entries.Pairwise fun first second =>
      (first.key == second.key) = false))
  | int _ | bigInt _ | boolean _ | bytes _ | double _ | text _ => .isTrue trivial
  | list _ | closure _ _ _ | block _ _ => .isTrue trivial

/-- No map in a literal, the literal itself included, has two equal keys. -/
def WellFormed (literal : Literal) : Prop := literal.Throughout DistinctKeys

namespace WellFormed

instance decidable (literal : Literal) : Decidable literal.WellFormed :=
  inferInstanceAs (Decidable (literal.Throughout DistinctKeys))

theorem iff {literal : Literal} :
    literal.WellFormed ↔
      literal.DistinctKeys ∧ ∀ child ∈ literal.children, child.WellFormed :=
  Throughout.iff

theorem child {literal child : Literal} (well : literal.WellFormed)
    (found : child ∈ literal.children) : child.WellFormed :=
  Throughout.child well found

end WellFormed

end Literal

/-- No map in the pool of a block has two equal keys, nor has any inside it. -/
def Block.WellFormed (block : Block) : Prop := ∀ literal ∈ block.literals, literal.WellFormed

instance Block.WellFormed.decidable (block : Block) : Decidable block.WellFormed :=
  inferInstanceAs (Decidable (∀ literal ∈ block.literals, literal.WellFormed))

end CompiledScript
