import CompiledScript.Literal.Dictionary
import CompiledScript.Proofs.Literal.Equivalence

/-!
# Maps built by insertion

Putting entries in one after the other gives a map with distinct keys, so every
map that is built this way from well-formed parts is well formed.  A list of
entries whose keys are distinct already is its own map, as every key is then new
when its turn comes.
-/

set_option autoImplicit false

namespace CompiledScript

open Literal

namespace Dictionary

/-! ## New keys -/

/-- A new key is put at the end. -/
theorem insert_of_absent {entries : List MapEntry} {key value : Literal}
    (absent : ∀ entry ∈ entries, (entry.key == key) = false) :
    insert key value entries = entries ++ [⟨key, value⟩] := by
  induction entries with
  | nil => rfl
  | cons entry entries ih =>
    have different := absent entry List.mem_cons_self
    rw [insert, different, if_neg Bool.false_ne_true,
      ih fun other found => absent other (List.mem_cons_of_mem _ found), List.cons_append]

theorem foldl_insert_of_distinct {pairs entries : List MapEntry}
    (distinct : (entries ++ pairs).Pairwise fun first second =>
      (first.key == second.key) = false) :
    pairs.foldl (fun entries pair => insert pair.key pair.value entries) entries =
      entries ++ pairs := by
  induction pairs generalizing entries with
  | nil => simp
  | cons pair pairs ih =>
    obtain ⟨key, value⟩ := pair
    have absent : ∀ entry ∈ entries, (entry.key == key) = false := fun entry found =>
      (List.pairwise_append.mp distinct).2.2 entry found _ List.mem_cons_self
    have grouped : entries ++ [⟨key, value⟩] ++ pairs = entries ++ ⟨key, value⟩ :: pairs := by simp
    rw [← grouped] at distinct ⊢
    rw [List.foldl_cons, insert_of_absent absent]
    exact ih distinct

/-- Entries with distinct keys are their own map. -/
theorem ofList_of_distinct {pairs : List MapEntry} (distinct : DistinctKeys (map pairs)) :
    ofList pairs = pairs :=
  foldl_insert_of_distinct distinct

/-! ## Keys stay distinct -/

/-- Every entry of the map after an insertion has a key of the map before it, or the new one. -/
theorem key_of_mem_insert {entries : List MapEntry} {key value : Literal} {entry : MapEntry}
    (found : entry ∈ insert key value entries) :
    (∃ earlier ∈ entries, entry.key = earlier.key) ∨ entry.key = key := by
  induction entries with
  | nil =>
    rw [List.mem_singleton.mp found]
    exact .inr rfl
  | cons first rest ih =>
    rw [insert] at found
    split at found
    · rcases List.mem_cons.mp found with rfl | found
      · exact .inl ⟨first, List.mem_cons_self, rfl⟩
      · exact .inl ⟨entry, List.mem_cons_of_mem _ found, rfl⟩
    · rcases List.mem_cons.mp found with rfl | found
      · exact .inl ⟨entry, List.mem_cons_self, rfl⟩
      · rcases ih found with ⟨earlier, listed, same⟩ | same
        · exact .inl ⟨earlier, List.mem_cons_of_mem _ listed, same⟩
        · exact .inr same

/-- An insertion keeps keys distinct: a key that is there is not put in again. -/
theorem distinct_insert {entries : List MapEntry} {key value : Literal}
    (distinct : DistinctKeys (map entries)) : DistinctKeys (map (insert key value entries)) := by
  induction entries with
  | nil => exact List.pairwise_singleton _ _
  | cons first rest ih =>
    obtain ⟨apart, distinct⟩ := List.pairwise_cons.mp distinct
    rw [insert]
    split
    · exact List.pairwise_cons.mpr ⟨apart, distinct⟩
    · rename_i different
      refine List.pairwise_cons.mpr ⟨fun entry found => ?_, ih distinct⟩
      rcases key_of_mem_insert found with ⟨earlier, listed, same⟩ | same
      · rw [same]
        exact apart earlier listed
      · rw [same]
        exact Bool.not_eq_true _ ▸ different

/-- **A map that is built by insertion has distinct keys.** -/
theorem distinct_ofList (pairs : List MapEntry) : DistinctKeys (map (ofList pairs)) := by
  suffices built : ∀ entries : List MapEntry, DistinctKeys (map entries) →
      DistinctKeys (map (pairs.foldl (fun entries pair => insert pair.key pair.value entries)
        entries)) from built [] List.Pairwise.nil
  induction pairs with
  | nil => exact fun _ distinct => distinct
  | cons pair pairs ih => exact fun entries distinct => ih _ (distinct_insert distinct)

end Dictionary

end CompiledScript
