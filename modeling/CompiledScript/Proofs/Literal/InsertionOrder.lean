import CompiledScript.Proofs.Literal.Construction

/-!
# A map remembers what was put in first and what was put in last

A history of insertions into an empty map is told here by the map it leads to.  Each key
stands where it was put in first, as it was written then, and has the value that was put in
with it last.  Every insertion comes back with the value that the key had before.

Keys are looked up by observational equality, which looks into maps, lambdas and blocks, so
all of this rests on equality being an equivalence among the keys.  It is not one among
all literals, but among those that a program can build.
-/

set_option autoImplicit false

namespace CompiledScript

open Literal

namespace Dictionary

variable {domain : Literal → Prop} {key value other : Literal} {pair : MapEntry}
  {entries pairs more : List MapEntry}

/-! ## A single insertion -/

theorem get?_cons (entry : MapEntry) (entries : List MapEntry) (key : Literal) :
    get? (entry :: entries) key = if entry.key == key then some entry.value else get? entries key := by
  rw [get?, List.find?_cons]
  cases entry.key == key <;> rfl

theorem get?_append (entries more : List MapEntry) (key : Literal) :
    get? (entries ++ more) key = (get? entries key).or (get? more key) := by
  rw [get?, List.find?_append, Option.map_or]
  rfl

/-- What is replaced is what the key had before. -/
theorem put_eq (key value : Literal) (entries : List MapEntry) :
    put key value entries = (get? entries key, insert key value entries) := by
  induction entries with
  | nil => rfl
  | cons entry entries ih =>
    rw [put, insert, get?_cons, ih]
    cases entry.key == key <;> rfl

/-- An insertion changes what one key has, and nothing else. -/
theorem get?_insert (equality : EqualityOn domain) (keyInside : domain key)
    (otherInside : domain other) (inside : ∀ entry ∈ entries, domain entry.key) :
    get? (insert key value entries) other =
      if key == other then some value else get? entries other := by
  induction entries with
  | nil => rw [insert, get?_cons]
  | cons entry entries ih =>
    obtain ⟨entryInside, inside⟩ := List.forall_mem_cons.mp inside
    rw [insert]
    split
    · rename_i same
      rw [get?_cons, get?_cons, equality.beq_congr entryInside keyInside otherInside same]
      cases key == other <;> rfl
    · rename_i different
      rw [get?_cons, get?_cons, ih inside]
      cases here : entry.key == other with
      | false => rfl
      | true =>
        have apart : (key == other) = false := by
          rw [Bool.eq_false_iff]
          intro same
          have back := equality.symm key other keyInside otherInside same
          exact different (equality.trans _ _ _ entryInside otherInside keyInside here back)
        rw [apart]
        rfl

/-- A key that is there stays as it is, and a new one is put at the end. -/
theorem map_key_insert (key value : Literal) (entries : List MapEntry) :
    (insert key value entries).map MapEntry.key =
      if (entries.map MapEntry.key).any (· == key) then entries.map MapEntry.key
      else entries.map MapEntry.key ++ [key] := by
  induction entries with
  | nil => rfl
  | cons entry entries ih =>
    rw [insert, List.map_cons, List.any_cons]
    cases entry.key == key with
    | true => rfl
    | false =>
      rw [if_neg Bool.false_ne_true, List.map_cons, ih, Bool.false_or]
      split <;> rfl

theorem keys_insert (keyInside : domain key) (inside : ∀ entry ∈ entries, domain entry.key) :
    ∀ entry ∈ insert key value entries, domain entry.key := by
  intro entry found
  rcases key_of_mem_insert found with ⟨earlier, listed, same⟩ | same
  · rw [same]
    exact inside earlier listed
  · rw [same]
    exact keyInside

/-! ## Histories -/

/-- The value that was put in last with a key. -/
def lastValue? (pairs : List MapEntry) (key : Literal) : Option Literal :=
  (pairs.reverse.find? fun pair => pair.key == key).map MapEntry.value

theorem lastValue?_cons (pair : MapEntry) (pairs : List MapEntry) (key : Literal) :
    lastValue? (pair :: pairs) key =
      (lastValue? pairs key).or (if pair.key == key then some pair.value else none) := by
  have split := get?_append pairs.reverse [pair] key
  rw [get?_cons] at split
  rw [lastValue?, List.reverse_cons]
  exact split

theorem putAll_entries (pairs entries : List MapEntry) :
    (putAll pairs entries).2 =
      pairs.foldl (fun entries pair => insert pair.key pair.value entries) entries := by
  induction pairs generalizing entries with
  | nil => rfl
  | cons pair pairs ih =>
    rw [List.foldl_cons, ← ih, putAll, put_eq]

/-- Each insertion of a history comes back with what its key had just before. -/
theorem putAll_replaced (pairs entries : List MapEntry) :
    (putAll pairs entries).1 = (List.range pairs.length).map fun index =>
      (pairs[index]?).bind fun pair => get? (putAll (pairs.take index) entries).2 pair.key := by
  induction pairs generalizing entries with
  | nil => rfl
  | cons pair pairs ih =>
    rw [List.length_cons, List.range_succ_eq_map, List.map_cons, List.map_map, putAll, put_eq]
    refine congrArg₂ List.cons rfl ((ih _).trans (List.map_congr_left fun index _ => ?_))
    simp only [Function.comp_apply, List.getElem?_cons_succ, List.take_succ_cons, putAll, put_eq]

theorem keys_foldl (pairsInside : ∀ pair ∈ pairs, domain pair.key)
    (inside : ∀ entry ∈ entries, domain entry.key) :
    ∀ entry ∈ pairs.foldl (fun entries pair => insert pair.key pair.value entries) entries,
      domain entry.key := by
  induction pairs generalizing entries with
  | nil => exact inside
  | cons pair pairs ih =>
    obtain ⟨pairInside, pairsInside⟩ := List.forall_mem_cons.mp pairsInside
    exact ih pairsInside (keys_insert pairInside inside)

/-- After a history a key has the value that was put in with it last, or the one that it had before
all. -/
theorem get?_foldl (equality : EqualityOn domain) (otherInside : domain other)
    (pairsInside : ∀ pair ∈ pairs, domain pair.key) (inside : ∀ entry ∈ entries, domain entry.key) :
    get? (pairs.foldl (fun entries pair => insert pair.key pair.value entries) entries) other =
      (lastValue? pairs other).or (get? entries other) := by
  induction pairs generalizing entries with
  | nil => rfl
  | cons pair pairs ih =>
    obtain ⟨pairInside, pairsInside⟩ := List.forall_mem_cons.mp pairsInside
    rw [List.foldl_cons, ih pairsInside (keys_insert pairInside inside),
      get?_insert equality pairInside otherInside inside, lastValue?_cons, Option.or_assoc]
    cases pair.key == other <;> rfl

/-- A map that is built by insertion has for a key the value that was put in with it last. -/
theorem get?_ofList (keyWell : key.WellFormed) (well : ∀ pair ∈ pairs, pair.key.WellFormed) :
    get? (ofList pairs) key = lastValue? pairs key := by
  have last : get? (ofList pairs) key = (lastValue? pairs key).or (get? [] key) :=
    get?_foldl equalityOn_wellFormed keyWell well nofun
  rwa [show get? [] key = none from rfl, Option.or_none] at last

/-- After a history the keys that were there come first, then the others in the order in which they
were put in first. -/
theorem map_key_foldl (equality : EqualityOn domain) (pairsInside : ∀ pair ∈ pairs, domain pair.key)
    (entries : List MapEntry) :
    (pairs.foldl (fun entries pair => insert pair.key pair.value entries) entries).map
        MapEntry.key =
      entries.map MapEntry.key ++ ((pairs.map MapEntry.key).filter fun key =>
        !(entries.map MapEntry.key).any (· == key)).eraseDups := by
  induction pairs generalizing entries with
  | nil => exact (List.append_nil _).symm
  | cons pair pairs ih =>
    obtain ⟨pairInside, pairsInside⟩ := List.forall_mem_cons.mp pairsInside
    rw [List.foldl_cons, ih pairsInside, map_key_insert, List.map_cons, List.filter_cons]
    cases present : (entries.map MapEntry.key).any (· == pair.key) with
    | true => rfl
    | false =>
      -- A key is compared with one put in before it here and the other way round in removing
      -- duplicates, so it takes symmetry for the two filters to agree.
      have later : ((pairs.map MapEntry.key).filter fun key =>
            !(entries.map MapEntry.key ++ [pair.key]).any (· == key)) =
          ((pairs.map MapEntry.key).filter fun key =>
            !(entries.map MapEntry.key).any (· == key)).filter fun key => !key == pair.key := by
        rw [List.filter_filter]
        refine List.filter_congr fun key listed => ?_
        obtain ⟨other, found, rfl⟩ := List.mem_map.mp listed
        rw [List.any_append, List.any_cons, List.any_nil, Bool.or_false, Bool.not_or,
          equality.beq_comm pairInside (pairsInside other found), Bool.and_comm]
      rw [if_neg Bool.false_ne_true, Bool.not_false, if_pos rfl, later, List.eraseDups_cons,
        List.append_assoc]
      rfl

/-- An entry is found under its own key. -/
theorem get?_of_mem (equality : EqualityOn domain) (distinct : DistinctKeys (map entries))
    {entry : MapEntry} (inside : domain entry.key) (found : entry ∈ entries) :
    get? entries entry.key = some entry.value := by
  induction entries with
  | nil => cases found
  | cons first rest ih =>
    obtain ⟨apart, distinct⟩ := List.pairwise_cons.mp distinct
    rw [get?_cons]
    rcases List.mem_cons.mp found with rfl | later
    · rw [if_pos (equality.refl _ inside)]
    · rw [apart entry later]
      exact ih distinct later

/-! ## The dictionary -/

/-- What a history of insertions into an empty map comes to: the map, and what the insertions came
back with. -/
structure History (pairs : List MapEntry) (replaced : List (Option Literal))
    (entries : List MapEntry) : Prop where
  /-- No two keys of the map are equal, whichever is compared with the other. -/
  distinct : entries.Pairwise fun first second =>
    (first.key == second.key) = false ∧ (second.key == first.key) = false
  /-- A key has the value that was put in with it last, and none if it never was put in. -/
  latest : ∀ key : Literal, key.Built → get? entries key = lastValue? pairs key
  /-- An insertion comes back with what its key had just before. -/
  replaced : replaced = (List.range pairs.length).map fun index =>
    (pairs[index]?).bind fun pair => get? (putAll (pairs.take index) []).2 pair.key
  /-- There are as many entries as different keys. -/
  size : entries.length = (pairs.map MapEntry.key).eraseDups.length
  /-- The keys are in the order in which they were put in first, and as they were then. -/
  order : entries.map MapEntry.key = (pairs.map MapEntry.key).eraseDups
  /-- The value with a key is the one that was put in with it last. -/
  values : ∀ entry ∈ entries, lastValue? pairs entry.key = some entry.value

theorem putAll_history {pairs : List MapEntry} (built : ∀ pair ∈ pairs, pair.key.Built) :
    History pairs (putAll pairs []).1 (putAll pairs []).2 := by
  have wellFormed : ∀ pair ∈ pairs, pair.key.WellFormed :=
    fun pair found => (built pair found).wellFormed
  have made : (putAll pairs []).2 = ofList pairs := putAll_entries pairs []
  have order : (ofList pairs).map MapEntry.key = (pairs.map MapEntry.key).eraseDups := by
    have all : ((pairs.map MapEntry.key).filter fun key => !([] : List Literal).any (· == key)) =
        pairs.map MapEntry.key := List.filter_eq_self.mpr fun _ _ => rfl
    have keys := map_key_foldl equalityOn_wellFormed wellFormed []
    rwa [List.map_nil, List.nil_append, all] at keys
  have inside : ∀ entry ∈ ofList pairs, entry.key.WellFormed := keys_foldl wellFormed nofun
  have latest (key : Literal) (keyBuilt : key.Built) :
      get? (ofList pairs) key = lastValue? pairs key :=
    get?_ofList keyBuilt.wellFormed wellFormed
  rw [made]
  refine ⟨?_, latest, putAll_replaced pairs [], ?_, order, fun entry found => ?_⟩
  · refine (distinct_ofList pairs).imp_of_mem fun {first second} found listed apart => ⟨apart, ?_⟩
    rwa [equalityOn_wellFormed.beq_comm (inside second listed) (inside first found)]
  · rw [← order, List.length_map]
  · rw [← latest _ (inside entry found).built]
    exact get?_of_mem equalityOn_wellFormed (distinct_ofList pairs) (inside entry found) found

/-- A map in another order is the same key. -/
theorem map_of_perm {left right : List MapEntry} (built : (map left).Built)
    (order : left.Perm right) : (map right).Built ∧ (map left == map right) = true := by
  have well := built.wellFormed
  have alike : Alike Same (map left) (map right) := by
    refine .map (List.forall₂_same.mpr fun entry found => ⟨?_, ?_⟩) order
    · exact equalityOn_wellFormed.similar_refl (well.child (key_mem_children found))
    · exact equalityOn_wellFormed.similar_refl (well.child (value_mem_children found))
  obtain ⟨-, rightWell, same⟩ := same_of_alike well alike
  exact ⟨rightWell.built, same⟩

/-- **A map is an insertion-ordered dictionary under observational equality.**  Whatever history of
insertions with keys that can be built leads to it, each key stands where it was put in first and has
the value that was put in last, and every insertion comes back with the value that it replaces.  Maps
in another order are one key, and doubles are one key only if all of their bits are the same. -/
theorem insertion_ordered {pairs : List MapEntry} (built : ∀ pair ∈ pairs, pair.key.Built) :
    History pairs (putAll pairs []).1 (putAll pairs []).2 ∧
      (∀ left right : List MapEntry, (map left).Built → left.Perm right →
        (map right).Built ∧ (map left == map right) = true) ∧
      ∀ one other : UInt64, (double one == double other) = true ↔ one = other := by
  refine ⟨putAll_history built, fun left right => map_of_perm, fun one other => ?_⟩
  show Literal.equal _ _ = true ↔ _
  rw [Literal.equal, beq_iff_eq]

/-- A map in another order replaces the value of the first one, and zeros of either sign are two
keys. -/
theorem insertion_ordered_reordered :
    let forward : Literal := .map [⟨.int 1, .int 10⟩, ⟨.int 2, .int 20⟩]
    let backward : Literal := .map [⟨.int 2, .int 20⟩, ⟨.int 1, .int 10⟩]
    let pairs : List MapEntry := [⟨forward, .text "first"⟩, ⟨backward, .text "second"⟩,
      ⟨.double 0, .text "zero"⟩, ⟨.double 9223372036854775808, .text "negative zero"⟩]
    (∀ pair ∈ pairs, pair.key.Built) ∧
      History pairs [none, some (.text "first"), none, none]
        [⟨forward, .text "second"⟩, ⟨.double 0, .text "zero"⟩,
          ⟨.double 9223372036854775808, .text "negative zero"⟩] := by
  intro forward backward pairs
  have forwardBuilt : forward.Built := by
    have scalars : ∀ pair ∈ ([⟨.int 1, .int 10⟩, ⟨.int 2, .int 20⟩] : List MapEntry),
        pair.key.IsScalar ∧ pair.value.IsScalar := by
      simp [IsScalar]
    have made : ofList [⟨.int 1, .int 10⟩, ⟨.int 2, .int 20⟩] =
        [⟨.int 1, .int 10⟩, ⟨.int 2, .int 20⟩] := by
      cbv
    have built := Built.map (fun pair found => .scalar (scalars pair found).1)
      fun pair found => .scalar (scalars pair found).2
    rwa [made] at built
  have built : ∀ pair ∈ pairs, pair.key.Built := by
    simp only [pairs, List.forall_mem_cons]
    exact ⟨forwardBuilt, (map_of_perm forwardBuilt (.swap ..)).1, .scalar trivial, .scalar trivial,
      List.forall_mem_nil _⟩
  have run : putAll pairs [] = ([none, some (.text "first"), none, none],
      [⟨forward, .text "second"⟩, ⟨.double 0, .text "zero"⟩,
        ⟨.double 9223372036854775808, .text "negative zero"⟩]) := by
    cbv
  have history := (insertion_ordered built).1
  rw [run] at history
  exact ⟨built, history⟩

end Dictionary

end CompiledScript
