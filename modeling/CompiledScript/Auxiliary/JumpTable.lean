import CompiledScript.Bytes

/-!
# Jump tables

A jump table sends keys to relative code offsets.  Its entries are kept in
strictly ascending key order, so a table has one representation whatever the
order in which its keys arrived, and two tables are equal exactly when they send
the same keys to the same offsets.

Texts are ordered by their UTF-8 bytes and integers by their value.
-/

namespace CompiledScript

set_option autoImplicit false

/-- Keys with a strict total order. -/
class JumpKey (κ : Type) where
  /-- Whether the first key stands before the second. -/
  before : κ → κ → Bool
  trans : ∀ {first second third : κ}, before first second → before second third →
    before first third
  irrefl : ∀ key : κ, ¬ before key key
  connected : ∀ {first second : κ}, ¬ before first second → ¬ before second first →
    first = second

instance : JumpKey String where
  before first second := decide (Bytes.ofText first < Bytes.ofText second)
  trans := by
    simp only [decide_eq_true_eq]
    exact List.lt_trans
  irrefl key := by
    simp only [decide_eq_true_eq]
    exact List.lt_irrefl _
  connected := by
    simp only [decide_eq_true_eq]
    intro first second notBefore notAfter
    exact Bytes.ofText_injective (List.le_antisymm notAfter notBefore)

instance : JumpKey Int64 where
  before first second := decide (first < second)
  trans := by
    simp only [decide_eq_true_eq]
    exact Int64.lt_trans
  irrefl key := by
    simp only [decide_eq_true_eq]
    exact Int64.lt_irrefl
  connected := by
    simp only [decide_eq_true_eq]
    intro first second notBefore notAfter
    exact Int64.le_antisymm (Int64.not_lt.mp notAfter) (Int64.not_lt.mp notBefore)

/-- Relative code offsets by key, in key order. -/
structure JumpTable (κ : Type) [JumpKey κ] where
  entries : List (κ × Int32)
  /-- Each key stands before all later ones. -/
  ascending : entries.Pairwise fun first second => JumpKey.before first.1 second.1

namespace JumpTable

variable {κ : Type} [JumpKey κ]

/-- The entry list with one key added, or its offset replaced. -/
def insertEntry (key : κ) (offset : Int32) : List (κ × Int32) → List (κ × Int32)
  | [] => [(key, offset)]
  | first :: rest =>
    if JumpKey.before key first.1 then (key, offset) :: first :: rest
    else if JumpKey.before first.1 key then first :: insertEntry key offset rest
    else (key, offset) :: rest

theorem key_mem_of_mem_insertEntry {key : κ} {offset : Int32} {entries : List (κ × Int32)}
    {entry : κ × Int32} (found : entry ∈ insertEntry key offset entries) :
    entry.1 = key ∨ entry ∈ entries := by
  induction entries with
  | nil => simp_all [insertEntry]
  | cons first rest ih =>
    simp only [insertEntry] at found
    split at found
    · rcases List.mem_cons.mp found with rfl | found
      · exact Or.inl rfl
      · exact Or.inr found
    · split at found
      · rcases List.mem_cons.mp found with rfl | found
        · exact Or.inr (List.mem_cons_self ..)
        · rcases ih found with same | found
          · exact Or.inl same
          · exact Or.inr (List.mem_cons_of_mem _ found)
      · rcases List.mem_cons.mp found with rfl | found
        · exact Or.inl rfl
        · exact Or.inr (List.mem_cons_of_mem _ found)

theorem ascending_insertEntry (key : κ) (offset : Int32) {entries : List (κ × Int32)}
    (ascending : entries.Pairwise fun first second => JumpKey.before first.1 second.1) :
    (insertEntry key offset entries).Pairwise
      fun first second => JumpKey.before first.1 second.1 := by
  induction entries with
  | nil => simp [insertEntry]
  | cons first rest ih =>
    obtain ⟨below, ascending⟩ := List.pairwise_cons.mp ascending
    simp only [insertEntry]
    split
    · rename_i before
      refine List.pairwise_cons.mpr
        ⟨fun entry found => ?_, List.pairwise_cons.mpr ⟨below, ascending⟩⟩
      rcases List.mem_cons.mp found with rfl | found
      · exact before
      · exact JumpKey.trans before (below entry found)
    · split
      · rename_i after
        refine List.pairwise_cons.mpr ⟨fun entry found => ?_, ih ascending⟩
        rcases key_mem_of_mem_insertEntry found with same | found
        · exact same ▸ after
        · exact below entry found
      · rename_i notBefore notAfter
        have same : key = first.1 := JumpKey.connected notBefore notAfter
        exact List.pairwise_cons.mpr ⟨fun entry found => same ▸ below entry found, ascending⟩

def empty : JumpTable κ := ⟨[], List.Pairwise.nil⟩

instance : Inhabited (JumpTable κ) := ⟨empty⟩

def insert (table : JumpTable κ) (key : κ) (offset : Int32) : JumpTable κ :=
  ⟨insertEntry key offset table.entries, ascending_insertEntry key offset table.ascending⟩

/-- Whether the table has an offset for the key. -/
def contains [DecidableEq κ] (table : JumpTable κ) (key : κ) : Bool :=
  table.entries.any (·.1 == key)

/-- The table of a list of keys and offsets, of which a later one replaces an earlier one. -/
def ofList (pairs : List (κ × Int32)) : JumpTable κ :=
  pairs.foldl (fun table pair => table.insert pair.1 pair.2) empty

def size (table : JumpTable κ) : Nat := table.entries.length

instance [DecidableEq κ] : DecidableEq (JumpTable κ) := fun first second =>
  if same : first.entries = second.entries then
    isTrue (by cases first; cases second; simp_all)
  else
    isFalse fun equal => same (equal ▸ rfl)

end JumpTable

end CompiledScript
