import CompiledScript.Proofs.Container.LooserBounds
import CompiledScript.Proofs.Literal.Canonical
import CompiledScript.Proofs.Literal.InsertionOrder

/-!
# The order of a map on the wire

A map does not write its entries in the order in which they were put in, but in the order
of the bytes of their keys.  The keys are set apart and sorted before any of the map is
written, each with the value that goes with it, so nothing is lost, doubled or paired
anew on the way.

No two keys write the same bytes, since a key is recovered from its bytes up to equality
and the keys of a map differ.  This is why the order is strict.

A map writes its parts one level of nesting further down than itself.  They write there
what they write on their own, because more levels change nothing where fewer suffice.
-/

set_option autoImplicit false

namespace CompiledScript

open Encoder

namespace Literal

variable {limits : Limits} {entries : List MapEntry}

/-- The bytes of a key and of a value are what the two of an entry write on their own, and the value
is the one that the map has for the key. -/
structure EntryWritten (limits : Limits) (entries : List MapEntry) (entry : MapEntry)
    (piece : Bytes × Bytes) : Prop where
  key : (entry.key.encode limits).bytes? = .ok piece.1
  value : (entry.value.encode limits).bytes? = .ok piece.2
  stored : Dictionary.get? entries entry.key = some entry.value

/-- The bytes of a map are its tag, the number of its entries, and one piece for each entry, the
bytes of its key and then those of its value, in the strictly ascending order of the keys' bytes. -/
structure WrittenAscending (limits : Limits) (entries : List MapEntry) (bytes : Bytes)
    (pieces : List (Bytes × Bytes)) : Prop where
  layout : bytes = Bytes.ofNat 4 Tag.map.code.toNat ++ Bytes.ofNat 4 entries.length ++
    (pieces.map fun piece => piece.1 ++ piece.2).flatten
  /-- The number of entries is not cut off. -/
  counted : entries.length < 4294967296
  ascending : pieces.Pairwise fun first second => first.1 < second.1
  /-- Each entry has one piece, and there are no others. -/
  complete : ∃ arranged, entries.Perm arranged ∧
    List.Forall₂ (EntryWritten limits entries) arranged pieces

/-- What is written for staged entries falls into the bytes that are staged and those of the
values. -/
theorem pieces_of_staged {encodeItem : Literal → Encoder} {staged : List (Bytes × Literal)}
    {written : List Bytes}
    (each : List.Forall₂ (fun entry bytes => (encodeStaged encodeItem entry).Writes bytes) staged
      written) :
    ∃ pieces : List (Bytes × Bytes),
      List.Forall₂ (fun entry piece => piece.1 = entry.1 ∧ (encodeItem entry.2).Writes piece.2)
        staged pieces ∧
      written = pieces.map fun piece => piece.1 ++ piece.2 := by
  induction each with
  | nil => exact ⟨[], .nil, rfl⟩
  | @cons entry bytes _ _ first _ ih =>
    obtain ⟨key, value, keyWritten, valueWritten, rfl⟩ := writes_append.mp first
    obtain ⟨pieces, paired, rfl⟩ := ih
    exact ⟨(key, value) :: pieces, .cons ⟨writes_raw.mp keyWritten, valueWritten⟩ paired, rfl⟩

/-- Behind its tag a map writes the number of its entries and one piece for each of them, in the
strictly ascending order of the bytes of the keys. -/
theorem pieces_of_map {encodeItem : Literal → Encoder} (separates : Separates encodeItem)
    (well : (map entries).WellFormed) {bytes : Bytes}
    (written : (encodeMap limits encodeItem entries).Writes bytes) :
    ∃ pieces : List (Bytes × Bytes), entries.length < 4294967296 ∧
      bytes = Bytes.ofNat 4 entries.length ++
        (pieces.map fun piece => piece.1 ++ piece.2).flatten ∧
      (pieces.Pairwise fun first second => first.1 < second.1) ∧
      ∃ arranged, entries.Perm arranged ∧
        List.Forall₂ (fun entry piece => (encodeItem entry.key).Writes piece.1 ∧
          (encodeItem entry.value).Writes piece.2) arranged pieces := by
  obtain ⟨staged, stages, table⟩ := writes_map.mp written
  obtain ⟨_, _, count, each, rfl⟩ := writes_append.mp table
  obtain ⟨parts, apiece, rfl⟩ := writes_each.mp each
  obtain ⟨-, counted, rfl⟩ := writes_count.mp count
  obtain ⟨pieces, split, rfl⟩ := pieces_of_staged apiece
  obtain ⟨arranged, order, sorted⟩ := Pairing.perm_left stages (sortStaged_perm staged).symm
  have length : (sortStaged staged).length = entries.length := by
    rw [(sortStaged_perm staged).length_eq, stages.length_eq]
  rw [length] at counted ⊢
  refine ⟨pieces, counted, rfl, ?_, arranged, order, ?_⟩
  · refine Pairing.pairwise split (sortStaged_strict separates well stages) ?_
    rintro first second one other ⟨here, -⟩ ⟨there, -⟩ before
    rwa [here, there]
  · refine Pairing.comp sorted split ?_
    rintro entry ⟨key, value⟩ piece ⟨keyWritten, rfl⟩ ⟨same, valueWritten⟩
    rw [same]
    exact ⟨keyWritten, valueWritten⟩

/-- What a literal writes at a level of nesting it writes on its own. -/
theorem encode_of_within {levels : Nat} (shallower : levels ≤ limits.maxDepth) {literal : Literal}
    {bytes : Bytes} (written : (encodeWithin limits levels literal).Writes bytes) :
    (literal.encode limits).Writes bytes :=
  relaxes_within (.refl limits) shallower literal bytes written

/-- **A map is written strictly ascending and complete.**  Whatever is put into a map, and under
whatever bounds it can be written, each of its entries is written once, in the strictly ascending
order of the bytes of the keys, and behind each key stands the value that the map has for it. -/
theorem map_written_ascending {pairs : List MapEntry}
    (keys : ∀ pair ∈ pairs, pair.key.Built) (values : ∀ pair ∈ pairs, pair.value.Built)
    {bytes : Bytes}
    (written : ((map (Dictionary.ofList pairs)).encode limits).bytes? = .ok bytes) :
    ∃ pieces, WrittenAscending limits (Dictionary.ofList pairs) bytes pieces := by
  have well : (map (Dictionary.ofList pairs)).WellFormed := (Built.map keys values).wellFormed
  generalize Dictionary.ofList pairs = entries at well written
  rw [encode] at written
  cases depth : limits.maxDepth with
  | zero =>
    -- Without a level of nesting nothing behind the tag of a map is written.
    rw [depth] at written
    obtain ⟨_, _, -, inside, -⟩ := writes_append.mp written
    exact (not_writes_fail inside).elim
  | succ levels =>
    rw [depth] at written
    obtain ⟨_, _, tag, body, rfl⟩ := writes_append.mp written
    obtain ⟨pieces, counted, rfl, ascending, arranged, order, paired⟩ :=
      pieces_of_map (separates_within limits levels) well body
    have shallower : levels ≤ limits.maxDepth := by omega
    refine ⟨pieces, ?_, counted, ascending, arranged, order, ?_⟩
    · rw [writes_raw.mp tag, List.append_assoc]
      rfl
    · refine Pairing.imp_of_mem paired ?_
      rintro entry found piece - ⟨keyWritten, valueWritten⟩
      have listed : entry ∈ entries := order.mem_iff.mpr found
      have stored := Dictionary.get?_of_mem equalityOn_wellFormed well.here
        (well.child (key_mem_children listed)) listed
      exact ⟨encode_of_within shallower keyWritten, encode_of_within shallower valueWritten, stored⟩

/-- A key is put in first and again with another value, and its bytes are greater than those of the
key in between. -/
def replacing : List MapEntry :=
  [⟨.int 3, .text "x"⟩, ⟨.text "b", .int 1⟩, ⟨.int 3, .text "y"⟩]

/-- The key that was put in first is written last, with the value that it has got since. -/
theorem map_written_ascending_replacing :
    (∀ pair ∈ replacing, pair.key.Built) ∧ (∀ pair ∈ replacing, pair.value.Built) ∧
      ∃ pieces, WrittenAscending {} [⟨.int 3, .text "y"⟩, ⟨.text "b", .int 1⟩]
        [4, 0, 0, 0, 2, 0, 0, 0, 7, 0, 0, 0, 1, 0, 0, 0, 98, 8, 0, 0, 0, 1, 0, 0, 0, 0, 0, 0, 0,
          8, 0, 0, 0, 3, 0, 0, 0, 0, 0, 0, 0, 7, 0, 0, 0, 1, 0, 0, 0, 121] pieces := by
  have scalars : ∀ pair ∈ replacing, pair.key.IsScalar ∧ pair.value.IsScalar := by
    simp [replacing, IsScalar]
  have keys : ∀ pair ∈ replacing, pair.key.Built := fun pair found => .scalar (scalars pair found).1
  have values : ∀ pair ∈ replacing, pair.value.Built :=
    fun pair found => .scalar (scalars pair found).2
  have made : Dictionary.ofList replacing = [⟨.int 3, .text "y"⟩, ⟨.text "b", .int 1⟩] := by
    with_unfolding_all rfl
  have body : (encodeMap {} (encodeWithin {} 255) (Dictionary.ofList replacing)).Writes
      [2, 0, 0, 0, 7, 0, 0, 0, 1, 0, 0, 0, 98, 8, 0, 0, 0, 1, 0, 0, 0, 0, 0, 0, 0,
        8, 0, 0, 0, 3, 0, 0, 0, 0, 0, 0, 0, 7, 0, 0, 0, 1, 0, 0, 0, 121] := by
    rw [made]
    refine writes_map.mpr ⟨[([8, 0, 0, 0, 3, 0, 0, 0, 0, 0, 0, 0], .text "y"),
      ([7, 0, 0, 0, 1, 0, 0, 0, 98], .int 1)], .cons ⟨rfl, rfl⟩ (.cons ⟨rfl, rfl⟩ .nil), ?_⟩
    rw [sortStaged_eq (.swap _ _ _) (by decide)]
    rfl
  have written : ((map (Dictionary.ofList replacing)).encode {}).Writes _ :=
    writes_append.mpr ⟨[4, 0, 0, 0], _, rfl, body, rfl⟩
  have ascending := map_written_ascending keys values written
  rw [made] at ascending
  exact ⟨keys, values, ascending⟩

end Literal

end CompiledScript
