import CompiledScript.Proofs.Auxiliary.Recovery
import CompiledScript.Proofs.Literal.Dictionary
import CompiledScript.Proofs.Literal.Output

/-!
# Recovering literals and blocks

Reading what a well-formed literal was written as gives a literal that is equal
to it.  It need not be the same one, since a map comes back with its entries in
the order of the bytes of their keys, and a block with its number of locals in
place of its table of locals.

Both directions recurse on the levels of nesting that may still be opened, and at
every level they refuse the same literals.  So the proof is by induction on the
levels, with one step that takes a decoder and an encoder for the level below and
asks of them only that the one restores what the other writes.
-/

set_option autoImplicit false

namespace CompiledScript

open Decoder

/-- A decoder of literals reads every well-formed literal that an encoder writes as one that is
equal to it. -/
def Literal.Recovers (decodeItem : Decoder Literal) (encodeItem : Literal → Encoder) : Prop :=
  ∀ literal, literal.WellFormed →
    decodeItem.Restores (encodeItem literal) (Literal.Same literal)

variable {limits : Limits} {decodeItem : Decoder Literal} {encodeItem : Literal → Encoder}

/-! ## Blocks -/

namespace Block

theorem localCount_of_checked {block : Block} {count : UInt32}
    (checked : block.checkedLocalCount = .ok count) : block.localCount = count := by
  rw [localCount, checked]

/-- A block is recovered if the literals of its pool are. -/
theorem restores_encodeWith (recovers : Literal.Recovers decodeItem encodeItem) {block : Block}
    (well : block.WellFormed) :
    (decodeWith limits decodeItem).Restores (block.encodeWith limits encodeItem)
      (block.Alike Literal.Same) := by
  simp only [encodeWith, Encoder.append_assoc]
  refine restores_count.exact ((restores_run _).exact ?_)
  refine (restores_table fun literal found => recovers literal (well literal found)).bind ?_
  intro literals alike
  refine (restores_table_exact _ fun record _ => Auxiliary.restores_encode record).exact ?_
  refine (restores_table_exact _ fun range _ => ExceptionRange.restores_encode range).exact ?_
  refine (restores_word32 _).exact ((restores_word32 _).exact ?_)
  cases checked : block.checkedLocalCount with
  | error error => exact .fail
  | ok count =>
    refine (restores_word32 count).last fun back same => ?_
    rw [same]
    exact ⟨rfl, alike, rfl, rfl, rfl, localCount_of_checked checked⟩

end Block

/-! ## The parts of literals -/

namespace Literal

theorem Tag.ofCode?_code (tag : Tag) : Tag.ofCode? tag.code = some tag := by
  cases tag with
  | bignum | boolean | bytes | map | double | list | text | int64 | uint64 | closure | block => rfl

/-- A sign and a magnitude give the integer they were written from. -/
theorem ofSignAndMagnitude_signCode (value : Int) :
    ofSignAndMagnitude (signCode value) (Bytes.shortest value.natAbs) = value := by
  rw [signCode]
  split
  · rename_i zero
    rw [zero]
    rfl
  · split
    · rename_i negative
      rw [ofSignAndMagnitude, if_neg (by decide), if_pos rfl, Bytes.toNat_shortest]
      omega
    · rename_i nonzero nonnegative
      rw [ofSignAndMagnitude, if_neg (by decide), if_neg (by decide), Bytes.toNat_shortest]
      omega

theorem signCode_le (value : Int) : ¬ 2 < signCode value := by
  rw [signCode]
  split
  · decide
  · split
    · decide
    · decide

theorem restores_integer (value : Int) :
    (decodeInteger limits).Restores (encodeInteger limits value) (· = value) := by
  refine (restores_byte _).exact ?_
  rw [if_neg (signCode_le value)]
  refine (restores_bytes _).last fun magnitude same => ?_
  rw [same, ofSignAndMagnitude_signCode]

/-- An unsigned word that is no signed one gives the wide integer it was written from. -/
theorem ofUnsigned_of_needsUnsigned {value : Int} (needs : needsUnsigned value = true) :
    ofUnsigned (UInt64.ofNat value.toNat) = bigInt value := by
  rw [needsUnsigned, Bool.and_eq_true, decide_eq_true_eq, decide_eq_true_eq] at needs
  have word : (UInt64.ofNat value.toNat).toNat = value.toNat := by
    rw [UInt64.toNat_ofNat']
    omega
  rw [ofUnsigned, word, if_neg (by omega)]
  congr 1
  omega

theorem restores_parameter (recovers : Recovers decodeItem encodeItem) {parameter : Parameter}
    (well : ∀ fallback, parameter.fallback = some fallback → fallback.WellFormed) :
    (decodeParameter limits decodeItem).Restores (encodeParameter limits encodeItem parameter)
      (parameter.Alike Same) := by
  obtain ⟨name, fallback⟩ := parameter
  simp only [encodeParameter, Encoder.append_assoc]
  refine (restores_text _).exact ((restores_boolean _).exact ?_)
  cases fallback with
  | none => exact .pure ⟨rfl, .none⟩
  | some fallback =>
    exact (recovers fallback (well fallback rfl)).last fun back same => ⟨rfl, .some same⟩

/-- The entry of a staged pair is read as what the bytes of its key stand for, with the value. -/
theorem restores_staged (recovers : Recovers decodeItem encodeItem) {entry : MapEntry}
    {staged : Bytes × Literal} (wellKey : entry.key.WellFormed)
    (wellValue : entry.value.WellFormed) (stages : Staged encodeItem entry staged) :
    (decodeEntry decodeItem).Restores (encodeStaged encodeItem staged)
      (fun back => decodeItem.Reads staged.1 back.key ∧ Same staged.2 back.value) := by
  obtain ⟨written, same⟩ := stages
  obtain ⟨key, read, -⟩ := recovers _ wellKey _ written
  have raw : decodeItem.Restores (Encoder.raw staged.1) (decodeItem.Reads staged.1) := by
    intro bytes output
    rw [Encoder.writes_raw.mp output]
    exact ⟨key, read, read⟩
  refine raw.bind fun key read => ?_
  rw [same]
  exact (recovers _ wellValue).last fun value alike => ⟨read, alike⟩

/-- The entries of a map are read in the order of the bytes of their keys, each as one that is
equal to it. -/
theorem restores_entries (recovers : Recovers decodeItem encodeItem) {entries : List MapEntry}
    (well : (map entries).WellFormed) :
    (table "map" limits.maxElements (decodeEntry decodeItem)).Restores
      (encodeMap limits encodeItem entries)
      (fun back => ∃ arranged, entries.Perm arranged ∧
        List.Forall₂ (MapEntry.Alike Same) arranged back) := by
  intro bytes written
  obtain ⟨staged, each, written⟩ := writes_map.mp written
  have wellEach : List.Forall₂ (fun entry piece =>
      (entry.key.WellFormed ∧ entry.value.WellFormed) ∧ Staged encodeItem entry piece)
      entries staged :=
    Pairing.imp_of_mem each fun entry found _ _ stages =>
      ⟨⟨well.child (key_mem_children found), well.child (value_mem_children found)⟩, stages⟩
  obtain ⟨arranged, order, sorted⟩ :=
    Pairing.perm_left wellEach (sortStaged_perm staged).symm
  have pieces : ∀ piece ∈ sortStaged staged,
      (decodeEntry decodeItem).Restores (encodeStaged encodeItem piece)
        (fun back => decodeItem.Reads piece.1 back.key ∧ Same piece.2 back.value) := by
    intro piece found
    obtain ⟨entry, -, ⟨wellKey, wellValue⟩, stages⟩ := Pairing.origin sorted found
    exact restores_staged recovers wellKey wellValue stages
  obtain ⟨back, read, found⟩ := restores_table pieces bytes written
  refine ⟨back, read, arranged, order, Pairing.comp sorted found ?_⟩
  rintro entry piece other ⟨⟨wellKey, -⟩, key, same⟩ ⟨readKey, value⟩
  obtain ⟨there, readThere, alike⟩ := recovers _ wellKey _ key
  rw [readThere.unique readKey] at alike
  rw [same] at value
  exact ⟨alike, value⟩

/-- A map read back by insertion holds equal entries. -/
theorem restores_map (recovers : Recovers decodeItem encodeItem) {entries : List MapEntry}
    (well : (map entries).WellFormed) :
    (do return map (Dictionary.ofList
      (← table "map" limits.maxElements (decodeEntry decodeItem))) : Decoder Literal).Restores
      (encodeMap limits encodeItem entries) (Same (map entries)) := by
  refine (restores_entries recovers well).last ?_
  rintro back ⟨arranged, order, alike⟩
  obtain ⟨middle, paired, rearranged⟩ := Pairing.perm_right order alike
  have same : Same (map entries) (map back) := same_of_alike well (.map paired rearranged)
  rw [Dictionary.ofList_of_distinct same.2.1.here]
  exact same

/-! ## One level -/

theorem restores_inside {α : Type} {decoder : Option (Decoder Literal)}
    {encoder : Option (Literal → Encoder)} (below : Option.Rel Recovers decoder encoder)
    {decodeBody : Decoder Literal → Decoder α} {encodeBody : (Literal → Encoder) → Encoder}
    {property : α → Prop}
    (body : ∀ decodeItem encodeItem, Recovers decodeItem encodeItem →
      (decodeBody decodeItem).Restores (encodeBody encodeItem) property) :
    (decodeInside limits decoder decodeBody).Restores (encodeInside limits encoder encodeBody)
      property := by
  cases below with
  | none => exact .fail
  | some recovers => exact body _ _ recovers

/-- A literal is recovered if the literals one level below are. -/
theorem restores_encodeWith {decoder : Option (Decoder Literal)}
    {encoder : Option (Literal → Encoder)} (below : Option.Rel Recovers decoder encoder)
    {literal : Literal} (well : literal.WellFormed) :
    (decodeWith limits decoder).Restores (encodeWith limits encoder literal) (Same literal) := by
  have scalar : literal.IsScalar → ∀ back, back = literal → Same literal back := by
    rintro scalar back rfl
    exact ⟨well, well, scalar_equal scalar⟩
  refine (restores_word32 _).exact ?_
  rw [Tag.ofCode?_code]
  cases literal with
  | int value => exact (restores_int64 value).last fun back same => scalar trivial _ (by rw [same])
  | bigInt value =>
    by_cases needs : needsUnsigned value = true
    · simp only [tag, if_pos needs]
      refine (restores_word64 _).last fun back same => scalar trivial _ ?_
      rw [same, ofUnsigned_of_needsUnsigned needs]
    · simp only [tag, if_neg needs]
      exact (restores_integer value).last fun back same => scalar trivial _ (by rw [same])
  | boolean value =>
    exact (restores_boolean value).last fun back same => scalar trivial _ (by rw [same])
  | bytes value => exact (restores_bytes value).last fun back same => scalar trivial _ (by rw [same])
  | map entries => exact restores_inside below fun _ _ recovers => restores_map recovers well
  | double bits => exact (restores_word64 bits).last fun back same => scalar trivial _ (by rw [same])
  | list items =>
    refine restores_inside below fun _ _ recovers => ?_
    refine (restores_table fun item found => recovers item (well.child found)).last ?_
    exact fun back alike => same_of_alike well (.list alike)
  | text value => exact (restores_text value).last fun back same => scalar trivial _ (by rw [same])
  | closure scope parameters body =>
    refine restores_inside below fun _ _ recovers => ?_
    rw [Encoder.append_assoc]
    refine (restores_text scope).exact ?_
    have fallbacks : ∀ parameter ∈ parameters, ∀ fallback, parameter.fallback = some fallback →
        fallback.WellFormed := by
      rintro ⟨name, _⟩ found fallback rfl
      exact well.child (fallback_mem_children found)
    refine (restores_table fun parameter found =>
      restores_parameter recovers (fallbacks parameter found)).bind fun back alike => ?_
    have pooled : body.WellFormed := fun _ found => well.child (pooled_mem_children found)
    refine (Block.restores_encodeWith recovers pooled).last fun other same => ?_
    exact same_of_alike well (.closure alike same)
  | block scope body =>
    refine restores_inside below fun _ _ recovers => ?_
    refine (restores_text scope).exact ?_
    refine (Block.restores_encodeWith recovers fun _ => well.child).last ?_
    exact fun back alike => same_of_alike well (.block alike)

/-! ## All levels -/

/-- Literals are recovered at every level of nesting. -/
theorem recovers_within (limits : Limits) (levels : Nat) :
    Recovers (decodeWithin limits levels) (encodeWithin limits levels) := by
  induction levels with
  | zero => exact fun literal well => restores_encodeWith .none well
  | succ levels recovers => exact fun literal well => restores_encodeWith (.some recovers) well

/-- **Every well-formed literal is read back as one that is equal to it.** -/
theorem recovers_encode (limits : Limits) : Recovers (decode limits) (encode limits) :=
  recovers_within limits limits.maxDepth

end Literal

/-- **Every well-formed block is read back as one that is equal to it.** -/
theorem Block.restores_encode {block : Block} (well : block.WellFormed) :
    (decode limits).Restores (block.encode limits) (block.Alike Literal.Same) :=
  restores_encodeWith (Literal.recovers_encode limits) well

end CompiledScript
