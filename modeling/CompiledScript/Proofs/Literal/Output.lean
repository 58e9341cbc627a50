import CompiledScript.Literal.Codec
import CompiledScript.Proofs.Wire.Output

/-!
# What literals write

The entries of a map are staged before they are written: each key is encoded on
its own, and the entries are put in the order of the resulting bytes.  Here this
is said as a relation between the entries of a map, what is staged for them and
what the map writes, with nothing left of the recursion that does the staging.
-/

set_option autoImplicit false

namespace CompiledScript.Literal

/-- What is staged for an entry: the bytes of its key, with its value. -/
def Staged (encodeKey : Literal → Encoder) (entry : MapEntry) (staged : Bytes × Literal) : Prop :=
  (encodeKey entry.key).Writes staged.1 ∧ staged.2 = entry.value

/-- Staging succeeds if every key is written, and stages the entries one by one. -/
theorem stageKeys_iff {encodeKey : Literal → Encoder} {entries : List MapEntry}
    {staged : List (Bytes × Literal)} :
    stageKeys encodeKey entries = .ok staged ↔
      List.Forall₂ (Staged encodeKey) entries staged := by
  induction entries generalizing staged with
  | nil =>
    rw [stageKeys, Except.ok.injEq, List.forall₂_nil_left_iff]
    exact eq_comm
  | cons entry entries ih =>
    rw [stageKeys, List.forall₂_cons_left_iff]
    constructor
    · intro done
      cases key : (encodeKey entry.key).bytes? with
      | error error => simp [key] at done
      | ok bytes =>
        cases rest : stageKeys encodeKey entries with
        | error error => simp [key, rest] at done
        | ok others =>
          simp only [key, rest, Except.ok.injEq] at done
          exact ⟨(bytes, entry.value), others, ⟨key, rfl⟩, ih.mp rest, done.symm⟩
    · rintro ⟨⟨bytes, value⟩, others, ⟨key, same⟩, rest, rfl⟩
      have written : (encodeKey entry.key).bytes? = .ok bytes := key
      have staged := ih.mpr rest
      simp only at same
      simp only [written, staged, same]

theorem sortStaged_perm (staged : List (Bytes × Literal)) : (sortStaged staged).Perm staged :=
  List.mergeSort_perm staged _

/-- Staged entries are put in the order of the bytes of their keys. -/
theorem sortStaged_ordered (staged : List (Bytes × Literal)) :
    (sortStaged staged).Pairwise fun first second => first.1 ≤ second.1 := by
  suffices ordered : (sortStaged staged).Pairwise fun first second =>
      decide (first.1 ≤ second.1) = true from ordered.imp of_decide_eq_true
  refine List.pairwise_mergeSort ?_ ?_ staged
  · intro first second third one other
    exact decide_eq_true (List.le_trans (of_decide_eq_true one) (of_decide_eq_true other))
  · intro first second
    rw [Bool.or_eq_true, decide_eq_true_eq, decide_eq_true_eq]
    exact List.le_total first.1 second.1

/-- If no two keys have the same bytes, their order is strict. -/
theorem sortStaged_ascending {staged : List (Bytes × Literal)}
    (apart : staged.Pairwise fun first second => first.1 ≠ second.1) :
    (sortStaged staged).Pairwise fun first second => first.1 < second.1 := by
  have sortedApart : (sortStaged staged).Pairwise fun first second => first.1 ≠ second.1 :=
    ((sortStaged_perm staged).pairwise_iff fun apart => apart.symm).mpr apart
  refine (sortStaged_ordered staged).imp₂ ?_ sortedApart
  intro first second below apart
  by_contra notBelow
  exact apart (List.le_antisymm below (List.not_lt.mp notBelow))

/-- Only one arrangement of staged entries is strictly ascending. -/
theorem sortStaged_eq {staged arranged : List (Bytes × Literal)} (order : arranged.Perm staged)
    (ascending : arranged.Pairwise fun first second => first.1 < second.1) :
    sortStaged staged = arranged := by
  have apart : staged.Pairwise fun first second => first.1 ≠ second.1 := by
    refine (order.pairwise_iff fun apart => apart.symm).mp (ascending.imp ?_)
    rintro first second below same
    exact List.lt_irrefl _ (same ▸ below)
  refine ((sortStaged_perm staged).trans order.symm).eq_of_pairwise ?_
    (sortStaged_ascending apart) ascending
  intro first second _ _ below above
  exact (List.lt_asymm below above).elim

/-- An entry that is staged: the bytes of its key and then its value. -/
def encodeStaged (encodeItem : Literal → Encoder) (entry : Bytes × Literal) : Encoder :=
  Encoder.raw entry.1 ++ encodeItem entry.2

/-- A map writes the table of what is staged for its entries. -/
theorem writes_map {limits : Limits} {encodeItem : Literal → Encoder} {entries : List MapEntry}
    {bytes : Bytes} :
    (encodeMap limits encodeItem entries).Writes bytes ↔
      ∃ staged, List.Forall₂ (Staged encodeItem) entries staged ∧
        (Encoder.table "map" limits.maxElements (sortStaged staged)
          (encodeStaged encodeItem)).Writes bytes := by
  rw [encodeMap]
  cases done : stageKeys encodeItem entries with
  | error error =>
    constructor
    · intro written
      exact (Encoder.not_writes_fail written).elim
    · rintro ⟨staged, each, -⟩
      rw [stageKeys_iff.mpr each] at done
      cases done
  | ok staged =>
    constructor
    · intro written
      exact ⟨staged, stageKeys_iff.mp done, written⟩
    · rintro ⟨others, each, written⟩
      rw [stageKeys_iff.mpr each] at done
      cases done
      exact written

end CompiledScript.Literal
