import CompiledScript.Auxiliary.Codec
import CompiledScript.ExceptionRange
import CompiledScript.Proofs.Wire.Recovery

/-!
# Recovering auxiliary records and exception ranges

Both kinds of record are read as they were written.  For a jump table this rests on
its keys, which are distinct: each is new when it is read, so its entry is put among
the others and all of them stay.  As the order of a table is strict, there is only
one table that has the entries that were written.  For a loop record it rests on the
two counts of its lists, which are written from the same list.
-/

set_option autoImplicit false

namespace CompiledScript

open Decoder

/-! ## Jump tables with given entries -/

namespace JumpTable

variable {κ : Type} [JumpKey κ] {key : κ} {offset : Int32} {entries : List (κ × Int32)}

/-- A new key is put among the others, which stay. -/
theorem insertEntry_perm (new : key ∉ entries.map Prod.fst) :
    (insertEntry key offset entries).Perm ((key, offset) :: entries) := by
  induction entries with
  | nil => exact .refl _
  | cons first rest ih =>
    rw [List.map_cons, List.mem_cons, not_or] at new
    rw [insertEntry]
    split
    · exact .refl _
    · rename_i notBefore
      split
      · exact ((ih new.2).cons first).trans (.swap ..)
      · rename_i notAfter
        exact absurd (JumpKey.connected notBefore notAfter) new.1

theorem contains_iff [DecidableEq κ] {table : JumpTable κ} :
    table.contains key = true ↔ key ∈ table.entries.map Prod.fst := by
  rw [contains, List.any_eq_true, List.mem_map]
  simp only [beq_iff_eq]

/-- The table with further entries put in one after the other. -/
def insertAll (table : JumpTable κ) (entries : List (κ × Int32)) : JumpTable κ :=
  entries.foldl (fun table entry => table.insert entry.1 entry.2) table

/-- No key of the further entries comes again, and none is there already. -/
def Admits (table : JumpTable κ) (entries : List (κ × Int32)) : Prop :=
  (table.entries.map Prod.fst ++ entries.map Prod.fst).Nodup

theorem admits_empty : (empty : JumpTable κ).Admits entries ↔ (entries.map Prod.fst).Nodup := .rfl

/-- What is admitted is put in entry by entry. -/
theorem Admits.cons {table : JumpTable κ} {entry : κ × Int32}
    (admits : table.Admits (entry :: entries)) :
    entry.1 ∉ table.entries.map Prod.fst ∧ (table.insert entry.1 entry.2).Admits entries := by
  have moved := List.perm_middle.nodup_iff.mp admits
  have absent : entry.1 ∉ table.entries.map Prod.fst := fun there =>
    (List.nodup_cons.mp moved).1 (List.mem_append_left _ there)
  have grown : (table.insert entry.1 entry.2).entries.Perm (entry :: table.entries) :=
    insertEntry_perm absent
  exact ⟨absent, ((grown.map Prod.fst).append_right _).nodup_iff.mpr moved⟩

/-- Entries with new keys are added to those that are there. -/
theorem insertAll_perm {table : JumpTable κ} (admits : table.Admits entries) :
    (table.insertAll entries).entries.Perm (table.entries ++ entries) := by
  induction entries generalizing table with
  | nil =>
    rw [List.append_nil]
    exact .refl _
  | cons entry entries ih =>
    obtain ⟨absent, others⟩ := admits.cons
    have grown : (table.insert entry.1 entry.2).entries.Perm (entry :: table.entries) :=
      insertEntry_perm absent
    exact (ih others).trans ((grown.append_right entries).trans List.perm_middle.symm)

/-- The keys of a table are distinct. -/
theorem admits_entries (table : JumpTable κ) : (empty : JumpTable κ).Admits table.entries := by
  refine admits_empty.mpr (List.pairwise_map.mpr (table.ascending.imp ?_))
  intro first second before same
  rw [same] at before
  exact JumpKey.irrefl second.1 before

/-- A table is known by its entries. -/
theorem eq_of_entries {left right : JumpTable κ} (same : left.entries = right.entries) :
    left = right := by
  cases left
  cases right
  cases same
  rfl

/-- A table is known by its entries in any order, since they have only one that is ascending. -/
theorem eq_of_perm {left right : JumpTable κ} (order : left.entries.Perm right.entries) :
    left = right := by
  apply eq_of_entries
  refine order.eq_of_pairwise ?_ left.ascending right.ascending
  intro first second _ _ before after
  exact absurd (JumpKey.trans before after) (JumpKey.irrefl first.1)

end JumpTable

namespace Auxiliary

theorem Tag.ofCode?_code (tag : Tag) : Tag.ofCode? tag.code = some tag := by
  cases tag with
  | textJumps | integerJumps | dictUpdate | foreachLegacy | foreach => rfl

theorem restores_slots {limits : Limits} {what : String} (slots : List UInt32) :
    (decodeSlots limits what).Restores (encodeSlots limits what slots) (· = slots) :=
  restores_table_exact slots fun slot _ => restores_word32 slot

section Jumps

variable {κ : Type} [JumpKey κ] [DecidableEq κ] {encodeKey : κ → Encoder} {decodeKey : Decoder κ}
  {keyText : κ → String} {entries : List (κ × Int32)} {read : JumpTable κ} {pieces : List Bytes}

/-- An entry is put in if its key is new, and otherwise refused once it has been read. -/
theorem decodeEntries_cons (restoresKey : ∀ key, decodeKey.Restores (encodeKey key) (· = key))
    {entry : κ × Int32} {piece : Bytes}
    (written : (encodeKey entry.1 ++ Encoder.word32 entry.2.toUInt32).Writes piece) (count : Nat)
    (read : JumpTable κ) (rest : Bytes) :
    decodeEntries decodeKey keyText (count + 1) read (piece ++ rest) =
      if read.contains entry.1 then .error (.duplicateJumpKey (keyText entry.1)) rest
      else decodeEntries decodeKey keyText count (read.insert entry.1 entry.2) rest := by
  obtain ⟨keyBytes, offsetBytes, keyWritten, offsetWritten, rfl⟩ := Encoder.writes_append.mp written
  obtain ⟨key, readKey, rfl⟩ := restoresKey entry.1 keyBytes keyWritten
  rw [Encoder.writes_raw.mp offsetWritten, decodeEntries, List.append_assoc, readKey.handOn,
    (reads_word32 _).handOn, Int32.toInt32_toUInt32]
  split
  · rfl
  · rfl

/-- Entries with new keys are put in, whatever comes behind them. -/
theorem decodeEntries_append (restoresKey : ∀ key, decodeKey.Restores (encodeKey key) (· = key))
    (written : List.Forall₂ (fun entry piece =>
      (encodeKey entry.1 ++ Encoder.word32 entry.2.toUInt32).Writes piece) entries pieces)
    (admits : read.Admits entries) (more : Nat) (rest : Bytes) :
    decodeEntries decodeKey keyText (entries.length + more) read (pieces.flatten ++ rest) =
      decodeEntries decodeKey keyText more (read.insertAll entries) rest := by
  induction written generalizing read with
  | nil =>
    rw [List.length_nil, Nat.zero_add]
    rfl
  | @cons entry piece entries pieces first _ ih =>
    obtain ⟨absent, others⟩ := admits.cons
    rw [List.length_cons, Nat.succ_add, List.flatten_cons, List.append_assoc,
      decodeEntries_cons restoresKey first, if_neg (mt JumpTable.contains_iff.mp absent),
      ih others]
    rfl

/-- Entries with new keys are read as the table with all of them put in. -/
theorem reads_entries (restoresKey : ∀ key, decodeKey.Restores (encodeKey key) (· = key))
    (written : List.Forall₂ (fun entry piece =>
      (encodeKey entry.1 ++ Encoder.word32 entry.2.toUInt32).Writes piece) entries pieces)
    (admits : read.Admits entries) :
    (decodeEntries decodeKey keyText entries.length read).Reads pieces.flatten
      (read.insertAll entries) := by
  intro rest
  exact decodeEntries_append restoresKey written admits 0 rest

theorem restores_jumps {limits : Limits}
    (restoresKey : ∀ key, decodeKey.Restores (encodeKey key) (· = key)) (table : JumpTable κ) :
    (decodeJumps limits decodeKey keyText).Restores (encodeJumps limits encodeKey table)
      (· = table) := by
  refine restores_count.exact ?_
  intro bytes written
  obtain ⟨pieces, apiece, rfl⟩ := Encoder.writes_each.mp written
  refine ⟨_, reads_entries restoresKey apiece table.admits_entries, ?_⟩
  exact JumpTable.eq_of_perm (JumpTable.insertAll_perm table.admits_entries)

end Jumps

theorem restores_loop {limits : Limits} (loop : ForeachLoop) :
    (decodeLoop limits loop.layout).Restores (encodeLoop limits loop) (· = loop) := by
  simp only [encodeLoop, Encoder.append_assoc, Encoder.table]
  refine restores_count.exact ((restores_word32 _).exact ((restores_word32 _).exact ?_))
  refine restores_countWord.bind fun second agrees => ?_
  rw [if_neg (not_not.mpr agrees)]
  refine (restores_times_exact loop.lists fun slots _ => restores_slots slots).last ?_
  intro lists same
  rw [same]

/-- **Every auxiliary record is read as it was written.** -/
theorem restores_encode {limits : Limits} (record : Auxiliary) :
    (decode limits).Restores (encode limits record) (· = record) := by
  refine (restores_word32 _).exact ?_
  rw [Tag.ofCode?_code]
  cases record with
  | textJumps table =>
    exact (restores_jumps restores_text table).last fun back same => congrArg textJumps same
  | integerJumps table =>
    exact (restores_jumps restores_int64 table).last fun back same => congrArg integerJumps same
  | dictUpdate slots =>
    exact (restores_slots slots).last fun back same => congrArg dictUpdate same
  | «foreach» loop =>
    obtain ⟨layout, counter, firstValue, lists⟩ := loop
    cases layout with
    | legacy =>
      have restored : (decodeLoop limits .legacy).Restores
          (encodeLoop limits ⟨.legacy, counter, firstValue, lists⟩) _ := restores_loop _
      exact restored.last fun back same => congrArg Auxiliary.foreach same
    | current =>
      have restored : (decodeLoop limits .current).Restores
          (encodeLoop limits ⟨.current, counter, firstValue, lists⟩) _ := restores_loop _
      exact restored.last fun back same => congrArg Auxiliary.foreach same

end Auxiliary

/-! ## Exception ranges -/

namespace ExceptionRange

/-- **Every exception range is read as it was written.** -/
theorem restores_encode (range : ExceptionRange) :
    decode.Restores range.encode (· = range) := by
  simp only [encode, Encoder.append_assoc]
  refine (restores_word32 _).exact ?_
  simp only [UInt8.toUInt8_toUInt32, ExceptionKind.ofCode?_code]
  refine (restores_word32 _).exact ((restores_word32 _).exact ((restores_word32 _).exact ?_))
  refine (restores_word32 _).exact ((restores_word32 _).exact ?_)
  refine (restores_word32 _).last fun target same => ?_
  rw [same]

end ExceptionRange

end CompiledScript
