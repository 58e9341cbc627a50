import CompiledScript.Proofs.Auxiliary.Arrangement
import CompiledScript.Proofs.Literal.InsertionOrder
import CompiledScript.Proofs.Literal.Recovery
import Mathlib.Data.List.Find

/-!
# Keyed tables whose entries come in any order

A map is read entry by entry, and an entry whose key is there already replaces the value.
So what is read has for each key the value that came with it last, and if no key comes
again the order of the entries is not to be seen in it.

Keys are compared as literals, not as bytes: a key may come back in another form, such as
a map with its entries in another order, and is the same key.  What a map has is
therefore told by what is found in it, and maps in which the same is found are equal.
-/

set_option autoImplicit false

namespace CompiledScript

open Decoder Literal

namespace Dictionary

variable {left right pairs entries : List MapEntry} {key : Literal}

/-! ## Maps in which the same is found -/

theorem rel_swap {one other : Option Literal} (related : Option.Rel Same one other) :
    Option.Rel Same other one := by
  cases related with
  | some same => exact .some (equalityOn_wellFormed.similar_symm _ _ same)
  | none => exact .none

/-- If another map has for every key what a map has, the entries of the one are found in it. -/
theorem allFoundIn_of_get? (leftWell : (map left).WellFormed) (rightWell : (map right).WellFormed)
    (agree : ∀ key : Literal, key.WellFormed → Option.Rel Same (get? left key) (get? right key)) :
    MapEntry.allFoundIn left right = true := by
  apply MapEntry.allFoundIn_iff.mpr
  intro entry listed
  have keyWell : entry.key.WellFormed := leftWell.child (key_mem_children listed)
  have related := agree entry.key keyWell
  rw [get?_of_mem equalityOn_wellFormed leftWell.here keyWell listed, get?] at related
  have turned : (right.find? fun other => entry.key == other.key) =
      right.find? fun other => other.key == entry.key := by
    apply List.find?_congr
    intro other found
    exact equalityOn_wellFormed.beq_comm keyWell (rightWell.child (key_mem_children found))
  rw [turned]
  cases first : right.find? fun other => other.key == entry.key with
  | none =>
    rw [first] at related
    cases related
  | some other =>
    rw [first] at related
    cases related with
    | some same => exact ⟨other, rfl, same.2.2⟩

/-- Maps in which the same is found are equal. -/
theorem same_of_get? (leftWell : (map left).WellFormed) (rightWell : (map right).WellFormed)
    (agree : ∀ key : Literal, key.WellFormed → Option.Rel Same (get? left key) (get? right key)) :
    Same (map left) (map right) := by
  have found := allFoundIn_of_get? leftWell rightWell agree
  have foundBack : MapEntry.allFoundIn right left = true := by
    apply allFoundIn_of_get? rightWell leftWell
    intro key well
    exact rel_swap (agree key well)
  obtain ⟨_, there, fits⟩ := equalityOn_wellFormed.subperm_of_found (fun _ => leftWell.child)
    (fun _ => rightWell.child) leftWell.here found
  obtain ⟨_, back, fitsBack⟩ := equalityOn_wellFormed.subperm_of_found (fun _ => rightWell.child)
    (fun _ => leftWell.child) rightWell.here foundBack
  have size : left.length = right.length := by
    apply Nat.le_antisymm
    · rw [there.length_eq]
      exact fits.length_le
    · rw [back.length_eq]
      exact fitsBack.length_le
  exact ⟨leftWell, rightWell, map_equal_iff.mpr ⟨size, found⟩⟩

/-! ## The entries that come last -/

/-- The entries whose key does not come again. -/
def latest : List MapEntry → List MapEntry
  | [] => []
  | entry :: entries =>
    if entries.any fun later => later.key == entry.key then latest entries
    else entry :: latest entries

theorem mem_of_mem_latest {entry : MapEntry} (found : entry ∈ latest entries) : entry ∈ entries := by
  induction entries with
  | nil => exact found
  | cons first entries ih =>
    rw [latest] at found
    split at found
    · exact List.mem_cons_of_mem _ (ih found)
    · rcases List.mem_cons.mp found with rfl | later
      · exact List.mem_cons_self
      · exact List.mem_cons_of_mem _ (ih later)

/-- No key of the entries that come last comes twice. -/
theorem distinct_latest (well : ∀ entry ∈ entries, entry.key.WellFormed) :
    DistinctKeys (map (latest entries)) := by
  induction entries with
  | nil => exact List.Pairwise.nil
  | cons entry entries ih =>
    obtain ⟨entryWell, well⟩ := List.forall_mem_cons.mp well
    rw [latest]
    split
    · exact ih well
    · rename_i alone
      rw [Bool.not_eq_true, List.any_eq_false] at alone
      refine List.pairwise_cons.mpr ⟨?_, ih well⟩
      intro later found
      have listed := mem_of_mem_latest found
      rw [equalityOn_wellFormed.beq_comm entryWell (well later listed)]
      exact Bool.not_eq_true _ ▸ alone later listed

/-- Entries with distinct keys all come last. -/
theorem latest_of_distinct (well : ∀ entry ∈ entries, entry.key.WellFormed)
    (distinct : DistinctKeys (map entries)) : latest entries = entries := by
  induction entries with
  | nil => rfl
  | cons entry entries ih =>
    obtain ⟨entryWell, well⟩ := List.forall_mem_cons.mp well
    obtain ⟨apart, distinct⟩ := List.pairwise_cons.mp distinct
    have alone : ¬ (entries.any fun later => later.key == entry.key) = true := by
      rw [Bool.not_eq_true, List.any_eq_false]
      intro later listed
      rw [equalityOn_wellFormed.beq_comm (well later listed) entryWell, apart later listed]
      exact Bool.false_ne_true
    rw [latest, if_neg alone, ih well distinct]

theorem lastValue?_eq_none :
    lastValue? entries key = none ↔ ∀ entry ∈ entries, ¬ (entry.key == key) = true := by
  rw [lastValue?, Option.map_eq_none_iff, List.find?_eq_none]
  simp only [List.mem_reverse]

/-- What comes last with a key is found among the entries that come last. -/
theorem get?_latest (keyWell : key.WellFormed) (well : ∀ entry ∈ entries, entry.key.WellFormed) :
    get? (latest entries) key = lastValue? entries key := by
  induction entries with
  | nil => rfl
  | cons entry entries ih =>
    obtain ⟨entryWell, well⟩ := List.forall_mem_cons.mp well
    rw [latest, lastValue?_cons]
    split
    · rename_i again
      obtain ⟨later, listed, same⟩ := List.any_eq_true.mp again
      rw [ih well]
      cases last : lastValue? entries key with
      | some value => rfl
      | none =>
        -- The key is not that of the later entry, so it is not that of this one either.
        have apart := lastValue?_eq_none.mp last later listed
        rw [equalityOn_wellFormed.beq_congr (well later listed) entryWell keyWell same] at apart
        rw [if_neg apart]
        rfl
    · rename_i alone
      rw [get?_cons, ih well]
      split
      · rename_i here
        have absent : lastValue? entries key = none := by
          apply lastValue?_eq_none.mpr
          intro later listed same
          have back := equalityOn_wellFormed.symm _ _ entryWell keyWell here
          have again := equalityOn_wellFormed.trans _ _ _ (well later listed) keyWell entryWell
            same back
          exact alone (List.any_eq_true.mpr ⟨later, listed, again⟩)
        rw [absent]
        rfl
      · rw [Option.or_none]

theorem rel_or {one other first second : Option Literal} (start : Option.Rel Same one other)
    (otherwise : Option.Rel Same first second) :
    Option.Rel Same (one.or first) (other.or second) := by
  cases start with
  | some same => exact .some same
  | none => exact otherwise

/-- Entries that correspond have corresponding values last. -/
theorem lastValue?_alike (keyWell : key.WellFormed)
    (alike : List.Forall₂ (MapEntry.Alike Same) left right) :
    Option.Rel Same (lastValue? left key) (lastValue? right key) := by
  induction alike with
  | nil => exact .none
  | @cons entry other _ _ first _ ih =>
    obtain ⟨⟨entryWell, otherWell, same⟩, values⟩ := first
    rw [lastValue?_cons, lastValue?_cons,
      equalityOn_wellFormed.beq_congr entryWell otherWell keyWell same]
    apply rel_or ih
    split
    · exact .some values
    · exact .none

/-- What is put in from entries that correspond is what comes last among them. -/
theorem same_latest_ofList (alike : List.Forall₂ (MapEntry.Alike Same) left right) :
    Same (map (latest left)) (map (ofList right)) := by
  have leftWell : ∀ entry ∈ left, entry.key.WellFormed ∧ entry.value.WellFormed := by
    intro entry found
    obtain ⟨other, -, key, value⟩ := Pairing.partner alike found
    exact ⟨key.1, value.1⟩
  have rightWell : ∀ entry ∈ right, entry.key.WellFormed ∧ entry.value.WellFormed := by
    intro entry found
    obtain ⟨other, -, key, value⟩ := Pairing.origin alike found
    exact ⟨key.2.1, value.2.1⟩
  have leftKeys : ∀ entry ∈ left, entry.key.WellFormed := fun entry found =>
    (leftWell entry found).1
  have rightKeys : ∀ entry ∈ right, entry.key.WellFormed := fun entry found =>
    (rightWell entry found).1
  apply same_of_get?
  · refine Throughout.map.mpr ⟨distinct_latest leftKeys, ?_⟩
    intro entry found
    exact leftWell entry (mem_of_mem_latest found)
  · exact Throughout.map.mpr ⟨distinct_ofList right, parts_ofList rightWell⟩
  · intro key keyWell
    rw [get?_latest keyWell leftKeys, get?_ofList keyWell rightKeys]
    exact lastValue?_alike keyWell alike

end Dictionary

/-! ## Maps on the wire -/

/-- The bytes are read as an entry that is equal to this one. -/
def MapEntry.ShownBy (limits : Limits) (levels : Nat) (entry : MapEntry) (bytes : Bytes) : Prop :=
  ∃ back, (decodeEntry (decodeWithin limits levels)).Reads bytes back ∧ entry.Alike Same back

namespace Literal

variable {limits : Limits} {levels : Nat}

/-- What a key and a value are written as is read as their entry. -/
theorem shownBy_of_writes {key value : Literal} (keyBuilt : key.Built) (valueBuilt : value.Built)
    {keyBytes valueBytes : Bytes} (keyWritten : (encodeWithin limits levels key).Writes keyBytes)
    (valueWritten : (encodeWithin limits levels value).Writes valueBytes) :
    MapEntry.ShownBy limits levels ⟨key, value⟩ (keyBytes ++ valueBytes) := by
  obtain ⟨keyBack, keyRead, keySame⟩ :=
    recovers_within limits levels key keyBuilt.wellFormed keyBytes keyWritten
  obtain ⟨valueBack, valueRead, valueSame⟩ :=
    recovers_within limits levels value valueBuilt.wellFormed valueBytes valueWritten
  exact ⟨⟨keyBack, valueBack⟩, keyRead.bind (valueRead.map (.pure _)), keySame, valueSame⟩

/-- A map with these pieces for its entries, in this order. -/
def mapBytes (pieces : List Bytes) : Bytes :=
  Bytes.ofNat 4 Tag.map.code.toNat ++ (Bytes.ofNat 4 pieces.length ++ pieces.flatten)

/-- A map is what its entries come to when they are put in one after the other. -/
theorem reads_map {pieces : List Bytes} {entries : List MapEntry}
    (small : pieces.length ≤ limits.maxElements) (word : pieces.length < 4294967296)
    (read : List.Forall₂ (decodeEntry (decodeWithin limits levels)).Reads pieces entries) :
    (decodeWithin limits (levels + 1)).Reads (mapBytes pieces) (map (Dictionary.ofList entries)) := by
  refine (reads_word32 Tag.map.code).bind ?_
  rw [Tag.ofCode?_code]
  exact (reads_table small word read).map (.pure _)

/-- Bytes that show entries are read as entries that correspond to them. -/
theorem entries_of_shown {wire : List (MapEntry × Bytes)}
    (shown : ∀ item ∈ wire, item.1.ShownBy limits levels item.2) :
    ∃ read, List.Forall₂ (decodeEntry (decodeWithin limits levels)).Reads (wire.map Prod.snd) read ∧
      List.Forall₂ (MapEntry.Alike Same) (wire.map Prod.fst) read := by
  induction wire with
  | nil => exact ⟨[], .nil, .nil⟩
  | cons item wire ih =>
    obtain ⟨⟨back, here, alike⟩, shown⟩ := List.forall_mem_cons.mp shown
    obtain ⟨read, others, alikeOthers⟩ := ih shown
    exact ⟨back :: read, .cons here others, .cons alike alikeOthers⟩

theorem keys_of_shown {wire : List (MapEntry × Bytes)}
    (shown : ∀ item ∈ wire, item.1.ShownBy limits levels item.2) :
    ∀ entry ∈ wire.map Prod.fst, entry.key.WellFormed := by
  intro entry listed
  obtain ⟨item, found, rfl⟩ := List.mem_map.mp listed
  obtain ⟨_, -, key, -⟩ := shown item found
  exact key.1

/-- A map is read as what comes last among its entries. -/
theorem reads_shown {wire : List (MapEntry × Bytes)} (small : wire.length ≤ limits.maxElements)
    (word : wire.length < 4294967296)
    (shown : ∀ item ∈ wire, item.1.ShownBy limits levels item.2) :
    ∃ found, (decodeWithin limits (levels + 1)).Reads (mapBytes (wire.map Prod.snd)) found ∧
      Same (map (Dictionary.latest (wire.map Prod.fst))) found := by
  obtain ⟨read, pieces, alike⟩ := entries_of_shown shown
  rw [← List.length_map Prod.snd] at small word
  exact ⟨_, reads_map small word pieces, Dictionary.same_latest_ofList alike⟩

/-- What is read of a map whose entries are on the wire in this order. -/
structure MapFromAnyOrder (limits : Limits) (levels : Nat) (wire : List (MapEntry × Bytes))
    (found : Literal) : Prop where
  read : ∀ rest, decodeWithin limits (levels + 1) (mapBytes (wire.map Prod.snd) ++ rest) =
    .ok found rest
  /-- Each key has the value that comes with it last. -/
  latest : (found == map (Dictionary.latest (wire.map Prod.fst))) = true
  /-- If no two keys are equal, then in every other order the entries are read as an equal map. -/
  arranged : ((wire.map Prod.fst).Pairwise fun first second => (first.key == second.key) = false) →
    ∀ others : List (MapEntry × Bytes), others.Perm wire →
      ∃ back, (∀ rest, decodeWithin limits (levels + 1) (mapBytes (others.map Prod.snd) ++ rest) =
        .ok back rest) ∧ (found == back) = true

theorem mapFromAnyOrder {wire : List (MapEntry × Bytes)}
    (small : wire.length ≤ limits.maxElements) (word : wire.length < 4294967296)
    (shown : ∀ item ∈ wire, item.1.ShownBy limits levels item.2) :
    ∃ found, MapFromAnyOrder limits levels wire found := by
  obtain ⟨found, read, same⟩ := reads_shown small word shown
  have turned := equalityOn_wellFormed.similar_symm _ _ same
  refine ⟨found, read, turned.2.2, ?_⟩
  intro distinct others order
  have othersSmall : others.length ≤ limits.maxElements := order.length_eq ▸ small
  have othersWord : others.length < 4294967296 := order.length_eq ▸ word
  have othersShown : ∀ item ∈ others, item.1.ShownBy limits levels item.2 :=
    fun item listed => shown item (order.mem_iff.mp listed)
  obtain ⟨back, readBack, sameBack⟩ := reads_shown othersSmall othersWord othersShown
  -- Where no key comes again all entries come last, so both maps have all of them.
  rw [Dictionary.latest_of_distinct (keys_of_shown shown) distinct] at turned
  obtain ⟨othersBuilt, reordered⟩ :=
    Dictionary.map_of_perm turned.2.1.built (order.symm.map Prod.fst)
  have othersWell := othersBuilt.wellFormed
  rw [Dictionary.latest_of_distinct (keys_of_shown othersShown) othersWell.here] at sameBack
  have across := equalityOn_wellFormed.similar_trans _ _ _ turned
    ⟨turned.2.1, othersWell, reordered⟩
  exact ⟨back, readBack, (equalityOn_wellFormed.similar_trans _ _ _ across sameBack).2.2⟩

end Literal

/-! ## All keyed tables -/

/-- **Keyed tables are read from any order of their entries.**  A map is read as what has for each
key the value that comes with it last, and if its keys differ pairwise it is read as an equal map
from every order of its entries.  A jump table is read exactly if its keys are distinct; otherwise
the first key that comes again is reported.  It is read as one table from every order, and written
again in the ascending order of the bytes of its texts, or of its integers by their signed values. -/
theorem keyedTables_readFromAnyOrder (limits : Limits) :
    (∀ (levels : Nat) (wire : List (MapEntry × Bytes)), wire.length ≤ limits.maxElements →
      wire.length < 4294967296 → (∀ item ∈ wire, item.1.ShownBy limits levels item.2) →
        ∃ found, MapFromAnyOrder limits levels wire found) ∧
      (∀ (entries : List (String × Int32)) (bytes : Bytes),
        (Auxiliary.writeJumps limits .textJumps (Encoder.text limits "jump table key")
          entries).bytes? = .ok bytes →
          Auxiliary.ReadFromAnyOrder limits
            (Auxiliary.writeJumps limits .textJumps (Encoder.text limits "jump table key"))
            Auxiliary.textJumps id
            (fun first second => Bytes.ofText first < Bytes.ofText second) entries bytes) ∧
        ∀ (entries : List (Int64 × Int32)) (bytes : Bytes),
          (Auxiliary.writeJumps limits .integerJumps Encoder.int64 entries).bytes? = .ok bytes →
            Auxiliary.ReadFromAnyOrder limits
              (Auxiliary.writeJumps limits .integerJumps Encoder.int64) Auxiliary.integerJumps
              (fun key => toString key.toInt) (fun first second => first.toInt < second.toInt)
              entries bytes := by
  refine ⟨?_, ?_, ?_⟩
  · intro levels wire small word shown
    exact mapFromAnyOrder small word shown
  · intro entries bytes written
    refine Auxiliary.readFromAnyOrder ?_ restores_text (fun _ => rfl) ?_ written
    · intro input
      rw [Auxiliary.decode, (reads_word32 _).handOn, Auxiliary.Tag.ofCode?_code]
    · intro first second before
      exact of_decide_eq_true before
  · intro entries bytes written
    refine Auxiliary.readFromAnyOrder ?_ restores_int64 (fun _ => rfl) ?_ written
    · intro input
      rw [Auxiliary.decode, (reads_word32 _).handOn, Auxiliary.Tag.ofCode?_code]
    · intro first second before
      exact Int64.lt_iff_toInt_lt.mp (of_decide_eq_true before)

/-- Truth values on the wire, one of which comes again as a key. -/
def repeatedTruths : List (MapEntry × Bytes) :=
  [(⟨.boolean true, .boolean false⟩, [2, 0, 0, 0, 1, 2, 0, 0, 0, 0]),
    (⟨.boolean false, .boolean true⟩, [2, 0, 0, 0, 0, 2, 0, 0, 0, 1]),
    (⟨.boolean true, .boolean true⟩, [2, 0, 0, 0, 1, 2, 0, 0, 0, 1])]

/-- A map and a table of texts in which a key comes again, and a table of integers against their
order. -/
theorem keyedTables_readFromAnyOrder_repeated :
    (∃ found, MapFromAnyOrder {} 0 repeatedTruths found ∧
      (found == .map [⟨.boolean false, .boolean true⟩, ⟨.boolean true, .boolean true⟩]) = true) ∧
      Auxiliary.ReadFromAnyOrder {}
        (Auxiliary.writeJumps {} .textJumps (Encoder.text {} "jump table key"))
        Auxiliary.textJumps id (fun first second => Bytes.ofText first < Bytes.ofText second)
        [("b", 1), ("a", 2), ("b", 3)]
        [1, 0, 0, 0, 3, 0, 0, 0, 1, 0, 0, 0, 98, 1, 0, 0, 0, 1, 0, 0, 0, 97, 2, 0, 0, 0,
          1, 0, 0, 0, 98, 3, 0, 0, 0] ∧
      Auxiliary.ReadFromAnyOrder {} (Auxiliary.writeJumps {} .integerJumps Encoder.int64)
        Auxiliary.integerJumps (fun key => toString key.toInt)
        (fun first second => first.toInt < second.toInt) [(5, 1), (-1, 2)]
        [2, 0, 0, 0, 2, 0, 0, 0, 5, 0, 0, 0, 0, 0, 0, 0, 1, 0, 0, 0,
          255, 255, 255, 255, 255, 255, 255, 255, 2, 0, 0, 0] := by
  obtain ⟨maps, texts, integers⟩ := keyedTables_readFromAnyOrder {}
  have built (value : Bool) : (Literal.boolean value).Built := .scalar trivial
  have written (value : Bool) : (encodeWithin {} 0 (.boolean value)).Writes
      [2, 0, 0, 0, if value then 1 else 0] := by
    cases value with
    | false => rfl
    | true => rfl
  have truth (key value : Bool) : MapEntry.ShownBy {} 0 ⟨.boolean key, .boolean value⟩
      ([2, 0, 0, 0, if key then 1 else 0] ++ [2, 0, 0, 0, if value then 1 else 0]) :=
    shownBy_of_writes (built key) (built value) (written key) (written value)
  have shown : ∀ item ∈ repeatedTruths, item.1.ShownBy {} 0 item.2 := by
    simp only [repeatedTruths, List.forall_mem_cons]
    exact ⟨truth true false, truth false true, truth true true, List.forall_mem_nil _⟩
  obtain ⟨found, read⟩ := maps 0 repeatedTruths (by decide) (by decide) shown
  refine ⟨⟨found, read, ?_⟩, texts _ _ ?_, integers _ _ ?_⟩
  · have latest : Dictionary.latest (repeatedTruths.map Prod.fst) =
        [⟨.boolean false, .boolean true⟩, ⟨.boolean true, .boolean true⟩] := by
      with_unfolding_all rfl
    rw [← latest]
    exact read.latest
  · decide +kernel
  · decide +kernel

end CompiledScript
