import CompiledScript.Proofs.Auxiliary.Normalisation
import CompiledScript.Proofs.Auxiliary.Recovery
import Mathlib.Data.List.Induction

/-!
# Jump tables whose entries come in any order

A writer puts the entries of a jump table in the order of their keys, but a reader takes
them in any order.  What it gets depends on the order in one respect only: where keys come
again, it stops at the first that does.  A table that is read to its end has the entries
that were on the wire, and there is only one table that has them.
-/

set_option autoImplicit false

namespace CompiledScript

open Decoder

namespace Auxiliary

variable {κ : Type} {encodeKey : κ → Encoder} {entries : List (κ × Int32)}

/-- Among entries whose keys are not distinct there is a first one whose key comes again. -/
theorem exists_first_repeat (repeated : ¬ (entries.map Prod.fst).Nodup) :
    ∃ front entry back, entries = front ++ entry :: back ∧ (front.map Prod.fst).Nodup ∧
      entry.1 ∈ front.map Prod.fst := by
  induction entries using List.reverseRecOn with
  | nil => exact absurd List.nodup_nil repeated
  | append_singleton entries last ih =>
    by_cases distinct : (entries.map Prod.fst).Nodup
    · refine ⟨entries, last, [], rfl, distinct, ?_⟩
      by_contra new
      apply repeated
      rw [List.map_append, List.map_singleton, List.perm_append_comm.nodup_iff]
      exact List.nodup_cons.mpr ⟨new, distinct⟩
    · obtain ⟨front, entry, back, rfl, before, again⟩ := ih distinct
      exact ⟨front, entry, back ++ [last], by simp, before, again⟩

/-! ## Entries on the wire -/

/-- A jump table as it would be written if its entries stood in this order. -/
def writeJumps (limits : Limits) (tag : Tag) (encodeKey : κ → Encoder)
    (entries : List (κ × Int32)) : Encoder :=
  Encoder.word32 tag.code ++
    Encoder.table "jump table" limits.maxElements entries (encodeEntry encodeKey)

/-- What there is on the wire if entries can be written in an order, and all that it takes. -/
theorem writes_jumps {limits : Limits} {tag : Tag} {bytes : Bytes} :
    (writeJumps limits tag encodeKey entries).Writes bytes ↔
      entries.length ≤ limits.maxElements ∧ entries.length < 4294967296 ∧
        ∃ pieces, List.Forall₂ (fun entry piece => (encodeEntry encodeKey entry).Writes piece)
          entries pieces ∧
          bytes = Bytes.ofNat 4 tag.code.toNat ++
            (Bytes.ofNat 4 entries.length ++ pieces.flatten) := by
  rw [writeJumps, Encoder.table]
  constructor
  · intro written
    obtain ⟨_, _, tagged, body, rfl⟩ := Encoder.writes_append.mp written
    obtain ⟨_, _, counted, each, rfl⟩ := Encoder.writes_append.mp body
    obtain ⟨small, word, rfl⟩ := Encoder.writes_count.mp counted
    obtain ⟨pieces, apiece, rfl⟩ := Encoder.writes_each.mp each
    rw [Encoder.writes_raw.mp tagged]
    exact ⟨small, word, pieces, apiece, rfl⟩
  · rintro ⟨small, word, pieces, apiece, rfl⟩
    refine Encoder.writes_append.mpr ⟨_, _, Encoder.writes_raw.mpr rfl, ?_, rfl⟩
    exact Encoder.writes_append.mpr ⟨_, _, Encoder.writes_count.mpr ⟨small, word, rfl⟩,
      Encoder.writes_each.mpr ⟨pieces, apiece, rfl⟩, rfl⟩

/-- What can be written in one order can be written in every order. -/
theorem exists_writes_of_perm {limits : Limits} {tag : Tag} {bytes : Bytes}
    {others : List (κ × Int32)} (order : others.Perm entries)
    (written : (writeJumps limits tag encodeKey entries).Writes bytes) :
    ∃ otherBytes, (writeJumps limits tag encodeKey others).Writes otherBytes := by
  obtain ⟨small, word, pieces, apiece, rfl⟩ := writes_jumps.mp written
  obtain ⟨arranged, each, -⟩ := Pairing.perm_right order apiece
  rw [← order.length_eq] at small word
  exact ⟨_, writes_jumps.mpr ⟨small, word, arranged, each, rfl⟩⟩

/-! ## Whole records -/

/-- What is read of a jump table whose entries are on the wire in this order. -/
structure ReadFromAnyOrder [JumpKey κ] (limits : Limits) (write : List (κ × Int32) → Encoder)
    (record : JumpTable κ → Auxiliary) (keyText : κ → String) (ahead : κ → κ → Prop)
    (entries : List (κ × Int32)) (bytes : Bytes) : Prop where
  /-- Reading succeeds exactly if no key comes again. -/
  accepted : ∀ rest, (∃ found left, decode limits (bytes ++ rest) = .ok found left) ↔
    (entries.map Prod.fst).Nodup
  /-- Otherwise it fails with the first key that comes again. -/
  refused : ¬ (entries.map Prod.fst).Nodup →
    ∃ front entry back, entries = front ++ entry :: back ∧ (front.map Prod.fst).Nodup ∧
      entry.1 ∈ front.map Prod.fst ∧
        ∀ rest, ∃ left, decode limits (bytes ++ rest) =
          .error (.duplicateJumpKey (keyText entry.1)) left
  /-- All orders of the entries are read as one table, and it is written in the ascending one. -/
  arranged : (entries.map Prod.fst).Nodup →
    ∃ table : JumpTable κ,
      (∀ others : List (κ × Int32), others.Perm entries → ∃ otherBytes,
        (write others).bytes? = .ok otherBytes ∧
          ∀ rest, decode limits (otherBytes ++ rest) = .ok (record table) rest) ∧
      table.entries.Perm entries ∧
        (table.entries.Pairwise fun first second => ahead first.1 second.1) ∧
          ∃ rewritten, (encode limits (record table)).bytes? = .ok rewritten ∧
            (write table.entries).bytes? = .ok rewritten

section Reading

variable [JumpKey κ] [DecidableEq κ] {decodeKey : Decoder κ} {keyText : κ → String}
  {limits : Limits} {tag : Tag} {record : JumpTable κ → Auxiliary} {bytes : Bytes}
  (tagged : ∀ input, decode limits (Bytes.ofNat 4 tag.code.toNat ++ input) =
    (do return record (← decodeJumps limits decodeKey keyText) : Decoder Auxiliary) input)

include tagged

/-- A record is read as far as its entries are. -/
theorem decode_jumps (small : entries.length ≤ limits.maxElements)
    (word : entries.length < 4294967296) (input : Bytes) :
    decode limits (Bytes.ofNat 4 tag.code.toNat ++ (Bytes.ofNat 4 entries.length ++ input)) =
      (do return record (← decodeEntries decodeKey keyText entries.length .empty)
        : Decoder Auxiliary) input := by
  rw [tagged, decodeJumps, bind_assoc, (reads_count small word).handOn]

variable (restoresKey : ∀ key, decodeKey.Restores (encodeKey key) (· = key))

include restoresKey

/-- Distinct keys are all accepted. -/
theorem reads_distinct (distinct : (entries.map Prod.fst).Nodup)
    (written : (writeJumps limits tag encodeKey entries).Writes bytes) :
    (decode limits).Reads bytes (record (JumpTable.empty.insertAll entries)) := by
  obtain ⟨small, word, pieces, apiece, rfl⟩ := writes_jumps.mp written
  have body : (decodeEntries decodeKey keyText entries.length .empty).Reads pieces.flatten
      (JumpTable.empty.insertAll entries) :=
    reads_entries restoresKey apiece (JumpTable.admits_empty.mpr distinct)
  intro rest
  rw [List.append_assoc, List.append_assoc, decode_jumps tagged small word, body.handOn]
  rfl

/-- The first key that comes again is refused, whatever comes behind it. -/
theorem refuses_repeated {front back : List (κ × Int32)} {entry : κ × Int32}
    (distinct : (front.map Prod.fst).Nodup) (again : entry.1 ∈ front.map Prod.fst)
    (written : (writeJumps limits tag encodeKey (front ++ entry :: back)).Writes bytes)
    (rest : Bytes) :
    ∃ left, decode limits (bytes ++ rest) = .error (.duplicateJumpKey (keyText entry.1)) left := by
  obtain ⟨small, word, pieces, apiece, rfl⟩ := writes_jumps.mp written
  obtain ⟨frontPieces, others, rfl, frontWritten, backWritten⟩ := Pairing.split apiece
  obtain _ | @⟨_, piece, _, backPieces, first, _⟩ := backWritten
  have admits : JumpTable.empty.Admits front := JumpTable.admits_empty.mpr distinct
  have there : (JumpTable.empty.insertAll front).contains entry.1 = true := by
    apply JumpTable.contains_iff.mpr
    exact ((JumpTable.insertAll_perm admits).map Prod.fst).mem_iff.mpr again
  have stopped : decodeEntries decodeKey keyText (front ++ entry :: back).length .empty
      ((frontPieces ++ piece :: backPieces).flatten ++ rest) =
        .error (.duplicateJumpKey (keyText entry.1)) (backPieces.flatten ++ rest) := by
    rw [List.length_append, List.length_cons, List.flatten_append, List.flatten_cons,
      List.append_assoc, List.append_assoc, decodeEntries_append restoresKey frontWritten admits,
      decodeEntries_cons restoresKey first, if_pos there]
  refine ⟨backPieces.flatten ++ rest, ?_⟩
  rw [List.append_assoc, List.append_assoc, decode_jumps tagged small word]
  show EStateM.bind _ _ _ = _
  rw [EStateM.bind, stopped]

/-- **A jump table is read from any order of its entries.** -/
theorem readFromAnyOrder
    (encoded : ∀ table, encode limits (record table) =
      writeJumps limits tag encodeKey table.entries)
    {ahead : κ → κ → Prop}
    (ordered : ∀ first second, JumpKey.before first second → ahead first second)
    (written : (writeJumps limits tag encodeKey entries).bytes? = .ok bytes) :
    ReadFromAnyOrder limits (writeJumps limits tag encodeKey) record keyText ahead entries bytes where
  accepted rest := by
    constructor
    · rintro ⟨found, left, read⟩
      by_contra repeated
      obtain ⟨front, entry, back, rfl, distinct, again⟩ := exists_first_repeat repeated
      obtain ⟨_, stopped⟩ := refuses_repeated tagged restoresKey distinct again written rest
      rw [stopped] at read
      cases read
    · intro distinct
      exact ⟨_, rest, reads_distinct tagged restoresKey distinct written rest⟩
  refused repeated := by
    obtain ⟨front, entry, back, rfl, distinct, again⟩ := exists_first_repeat repeated
    exact ⟨front, entry, back, rfl, distinct, again,
      refuses_repeated tagged restoresKey distinct again written⟩
  arranged distinct := by
    have made (others : List (κ × Int32)) (order : others.Perm entries) :
        (JumpTable.empty.insertAll others).entries.Perm entries := by
      have othersDistinct := (order.map Prod.fst).nodup_iff.mpr distinct
      exact (JumpTable.insertAll_perm (JumpTable.admits_empty.mpr othersDistinct)).trans order
    have order := made entries (.refl _)
    refine ⟨JumpTable.empty.insertAll entries, ?_, order, ?_, ?_⟩
    · intro others permuted
      obtain ⟨otherBytes, otherWritten⟩ := exists_writes_of_perm permuted written
      have othersDistinct := (permuted.map Prod.fst).nodup_iff.mpr distinct
      have read := reads_distinct tagged restoresKey othersDistinct otherWritten
      rw [JumpTable.eq_of_perm ((made others permuted).trans order.symm)] at read
      exact ⟨otherBytes, otherWritten, read⟩
    · apply (JumpTable.ascending _).imp
      intro first second before
      exact ordered _ _ before
    · obtain ⟨rewritten, again⟩ := exists_writes_of_perm order written
      rw [encoded]
      exact ⟨rewritten, again, again⟩

end Reading

end Auxiliary

end CompiledScript
