import CompiledScript.Proofs.Auxiliary.Normalisation
import CompiledScript.Proofs.Literal.Canonical
import CompiledScript.Proofs.Literal.Dictionary

/-!
# Normalising literals and blocks

A literal has many forms that are read and one that is written.  The keys of a
map come in any order and may come again, magnitudes may be padded with zeros, and
small integers may stand behind the tag of unsigned words.  None of these forms is
shorter than the one that is written, and the bounds under which a form was read
admit the written one.

For a map this is a matter of shares.  Each entry that is read has a share of the
bytes, and so have its key and its value.  When a key comes again, its value takes
the place of the earlier one and the key stays as it was first written, so the
entry has the share of the earlier key and of the later value.  This holds however
the two keys were written, since what counts is that they are equal.
-/

set_option autoImplicit false

namespace CompiledScript

open Decoder Encoder

/-! ## Sound values -/

/-- What reading makes sure of: maps have distinct keys and tables of locals fit. -/
structure Literal.Sound (literal : Literal) : Prop where
  well : literal.WellFormed
  fits : literal.TablesFit

/-- What reading makes sure of in a block. -/
structure Block.Sound (block : Block) : Prop where
  here : block.TableFits
  below : ∀ literal ∈ block.literals, literal.Sound

namespace Literal

theorem Sound.intro {literal : Literal} (distinct : literal.DistinctKeys)
    (fits : literal.TableFits) (below : ∀ child ∈ literal.children, child.Sound) :
    literal.Sound where
  well := .intro distinct fun child found => (below child found).well
  fits := .intro fits fun child found => (below child found).fits

theorem Sound.scalar {literal : Literal} (scalar : literal.IsScalar) : literal.Sound := by
  cases literal with
  | int _ | bigInt _ | boolean _ | bytes _ | double _ | text _ =>
    refine .intro trivial trivial fun child found => ?_
    cases found
  | map _ | list _ | closure _ _ _ | block _ _ => cases scalar

end Literal

/-- A decoder of literals gives sound ones, which an encoder writes within the bytes taken. -/
abbrev Literal.Normalises (decodeItem : Decoder Literal) (encodeItem : Literal → Encoder) : Prop :=
  Decoder.Normalises decodeItem encodeItem Literal.Sound

variable {limits : Limits} {decodeItem : Decoder Literal} {encodeItem : Literal → Encoder}

/-! ## Blocks -/

/-- A block is written again within what was taken for it if the literals of its pool are. -/
theorem Block.normalises_decodeWith (below : Literal.Normalises decodeItem encodeItem) :
    (decodeWith limits decodeItem).Normalises (encodeWith limits encodeItem) Block.Sound := by
  have record : (Auxiliary.decode limits).Normalises (Auxiliary.encode limits) fun _ => True :=
    (Auxiliary.normalises_decode limits).weaken fun _ _ fits => ⟨trivial, fits⟩
  have range : ExceptionRange.decode.Normalises ExceptionRange.encode fun _ => True :=
    ExceptionRange.normalises_decode.weaken fun _ _ fits => ⟨trivial, fits⟩
  refine (yields_count _ _).bind fun length taken counted => ?_
  obtain ⟨rfl, small, word⟩ := counted
  refine (yields_run length).bind fun code taken whole => ?_
  obtain ⟨rfl, rfl⟩ := whole
  refine (below.table _ _).bind fun literals taken pooled => ?_
  refine (record.table _ _).bind fun auxiliaries taken records => ?_
  refine (range.table _ _).bind fun exceptions taken ranges => ?_
  refine yields_word32.bind fun maxStack taken stackWidth => ?_
  refine yields_word32.bind fun reserved taken reservedWidth => ?_
  refine yields_word32.last fun locals taken localsWidth => ?_
  constructor
  · exact ⟨fun table listed => (Option.not_mem_none table listed).elim, pooled.1⟩
  · simp only [encodeWith, checkedLocalCount, Encoder.append_assoc, stackWidth, reservedWidth,
      localsWidth]
    refine (within_count small word).append ((within_raw code).append ?_)
    refine pooled.2.append (records.2.append (ranges.2.append ?_))
    refine (within_word32 _).append ((within_word32 _).append (within_word32 _))

/-! ## Integers -/

/-- The shortest digits of a number are no more than any digits of it. -/
theorem Bytes.length_shortest_le {width value : Nat} (fits : value < Nat.pow 256 width) :
    (shortest value).length ≤ width := by
  induction width generalizing value with
  | zero =>
    have zero : value = 0 := Nat.lt_one_iff.mp fits
    rw [zero, shortest_zero]
    exact Nat.le_refl 0
  | succ width ih =>
    rw [shortest]
    split
    · exact Nat.zero_le _
    · have larger : Nat.pow 256 (width + 1) = Nat.pow 256 width * 256 := rfl
      exact Nat.succ_le_succ (ih (by omega))

namespace Literal

theorem natAbs_ofSignAndMagnitude_le (sign : UInt8) (magnitude : Bytes) :
    (ofSignAndMagnitude sign magnitude).natAbs ≤ Bytes.toNat magnitude := by
  rw [ofSignAndMagnitude]
  split
  · exact Nat.zero_le _
  · split
    · omega
    · omega

/-- A wide integer that only an unsigned word holds has a long magnitude. -/
theorem three_le_of_needsUnsigned {value : Int} {width : Nat} (needs : needsUnsigned value = true)
    (fits : value.natAbs < Nat.pow 256 width) : 3 ≤ width := by
  rw [needsUnsigned, Bool.and_eq_true, decide_eq_true_eq] at needs
  by_contra short
  have most : Nat.pow 256 width ≤ Nat.pow 256 3 := Nat.pow_le_pow_right (by decide) (by omega)
  have number : Nat.pow 256 3 = 16777216 := rfl
  omega

/-- Leading zeros of a magnitude are dropped, and a magnitude that fits in an unsigned word is
written as one. -/
theorem normalises_integer (limits : Limits) :
    (decodeInteger limits).Yields fun value taken =>
      (if needsUnsigned value then word64 (UInt64.ofNat value.toNat)
        else encodeInteger limits value).WritesWithin taken := by
  refine yields_byte.bind fun sign taken width => ?_
  subst width
  split
  · exact .throw
  refine (yields_bytes limits _).last fun magnitude taken whole => ?_
  obtain ⟨rfl, small, word⟩ := whole
  have fits : (ofSignAndMagnitude sign magnitude).natAbs < Nat.pow 256 magnitude.length :=
    Nat.lt_of_le_of_lt (natAbs_ofSignAndMagnitude_le sign magnitude) magnitude.toNat_lt
  have shorter := Bytes.length_shortest_le fits
  split
  · rename_i needs
    have long := three_le_of_needsUnsigned needs fits
    exact (within_word64 _).mono (by omega)
  · refine (within_byte _).append ((within_bytes ?_ ?_).mono ?_)
    · exact Nat.le_trans shorter small
    · exact Nat.lt_of_le_of_lt shorter word
    · exact Nat.add_le_add_left shorter 4

/-! ## Maps -/

/-- An entry whose key and value are sound and are written within a share. -/
def EntryFits (encodeItem : Literal → Encoder) (entry : MapEntry) (share : Nat) : Prop :=
  ∃ keyShare valueShare, keyShare + valueShare ≤ share ∧
    (entry.key.Sound ∧ (encodeItem entry.key).WritesWithin keyShare) ∧
      entry.value.Sound ∧ (encodeItem entry.value).WritesWithin valueShare

theorem normalises_entry (below : Normalises decodeItem encodeItem) :
    (decodeEntry decodeItem).Yields (EntryFits encodeItem) := by
  refine below.bind fun key keyShare keyFits => ?_
  refine below.last fun value valueShare valueFits => ?_
  exact ⟨keyShare, valueShare, Nat.le_refl _, keyFits, valueFits⟩

/-- The entries after an insertion share what was taken for the earlier ones and for the new one,
also when the new one replaces the value of an earlier one. -/
theorem insert_apportioned {entries : List MapEntry} {key value : Literal} {share total : Nat}
    (new : EntryFits encodeItem ⟨key, value⟩ share)
    (shared : Apportioned (EntryFits encodeItem) entries total) :
    Apportioned (EntryFits encodeItem) (Dictionary.insert key value entries) (share + total) := by
  induction entries generalizing total with
  | nil => exact shared.cons new
  | cons entry entries ih =>
    obtain ⟨own, others, fits, sharedRest, sum⟩ := shared.of_cons
    rw [Dictionary.insert]
    split
    · obtain ⟨keyShare, replacedShare, ownSum, keyFits, -⟩ := fits
      obtain ⟨repeatedShare, valueShare, newSum, -, valueFits⟩ := new
      have replaced : EntryFits encodeItem { entry with value } (keyShare + valueShare) :=
        ⟨keyShare, valueShare, Nat.le_refl _, keyFits, valueFits⟩
      exact (sharedRest.cons replaced).mono (by omega)
    · exact ((ih sharedRest).cons fits).mono (by omega)

theorem length_insert_le (key value : Literal) (entries : List MapEntry) :
    (Dictionary.insert key value entries).length ≤ entries.length + 1 := by
  induction entries with
  | nil => exact Nat.le_refl 1
  | cons entry entries ih =>
    rw [Dictionary.insert]
    split
    · exact Nat.le_succ _
    · exact Nat.succ_le_succ ih

/-- The entries of a map that is built by insertion share what was taken for the pairs, and there
are no more of them. -/
theorem ofList_apportioned {pairs : List MapEntry} {total : Nat}
    (shared : Apportioned (EntryFits encodeItem) pairs total) :
    (Dictionary.ofList pairs).length ≤ pairs.length ∧
      Apportioned (EntryFits encodeItem) (Dictionary.ofList pairs) total := by
  suffices built : ∀ (entries : List MapEntry) (before : Nat),
      Apportioned (EntryFits encodeItem) entries before →
        let after := pairs.foldl (fun entries pair => Dictionary.insert pair.key pair.value entries)
          entries
        after.length ≤ entries.length + pairs.length ∧
          Apportioned (EntryFits encodeItem) after (before + total) by
    have whole := built [] 0 (.nil 0)
    rwa [List.length_nil, Nat.zero_add, Nat.zero_add] at whole
  induction pairs generalizing total with
  | nil => exact fun entries before shared => ⟨Nat.le_refl _, shared.mono (Nat.le_add_right ..)⟩
  | cons pair pairs ih =>
    intro entries before sharedBefore
    obtain ⟨key, value⟩ := pair
    obtain ⟨share, others, fits, sharedRest, sum⟩ := shared.of_cons
    have grown := insert_apportioned fits sharedBefore
    obtain ⟨length, sharedAll⟩ := ih sharedRest _ _ grown
    have longer := length_insert_le key value entries
    refine ⟨Nat.le_trans length ?_, sharedAll.mono (by omega)⟩
    rw [List.length_cons]
    omega

/-- The entries of a map are staged one by one, and each is written within its share. -/
theorem staged_of_apportioned {entries : List MapEntry} {total : Nat}
    (shared : Apportioned (EntryFits encodeItem) entries total) :
    ∃ staged, List.Forall₂ (Staged encodeItem) entries staged ∧
      Apportioned (fun piece => (encodeStaged encodeItem piece).WritesWithin) staged total := by
  induction entries generalizing total with
  | nil => exact ⟨[], .nil, .nil total⟩
  | cons entry entries ih =>
    obtain ⟨share, others, fits, sharedRest, sum⟩ := shared.of_cons
    obtain ⟨staged, stages, sharedStaged⟩ := ih sharedRest
    obtain ⟨keyShare, valueShare, ownSum, ⟨-, key, written, length⟩, -, valueFits⟩ := fits
    have piece : (encodeStaged encodeItem (key, entry.value)).WritesWithin share :=
      (((within_raw key).mono length).append valueFits).mono ownSum
    have grown : Apportioned (fun piece => (encodeStaged encodeItem piece).WritesWithin)
        ((key, entry.value) :: staged) (share + others) := .cons piece sharedStaged
    exact ⟨(key, entry.value) :: staged, .cons ⟨written, rfl⟩ stages, grown.mono sum⟩

/-- **A map is written again within what was taken for it**, whatever the order of its entries and
however often a key came again. -/
theorem normalises_map (below : Normalises decodeItem encodeItem) :
    (do return map (Dictionary.ofList
      (← table "map" limits.maxElements (decodeEntry decodeItem))) : Decoder Literal).Yields
      fun literal taken => literal.Sound ∧ ∃ entries, literal = map entries ∧
        (encodeMap limits encodeItem entries).WritesWithin taken := by
  refine (yields_table (normalises_entry below) _ _).last fun pairs taken read => ?_
  obtain ⟨total, rfl, small, word, shared⟩ := read
  obtain ⟨fewer, sharedEntries⟩ := ofList_apportioned shared
  constructor
  · refine .intro (Dictionary.distinct_ofList pairs) trivial fun child found => ?_
    obtain ⟨entry, listed, side⟩ := mem_children_map.mp found
    obtain ⟨_, _, _, _, ⟨keySound, -⟩, valueSound, -⟩ := sharedEntries.share listed
    rcases side with rfl | rfl
    · exact keySound
    · exact valueSound
  · obtain ⟨staged, stages, sharedStaged⟩ := staged_of_apportioned sharedEntries
    have length : (sortStaged staged).length ≤ pairs.length := by
      rw [(sortStaged_perm staged).length_eq, ← stages.length_eq]
      exact fewer
    obtain ⟨bytes, written, most⟩ := within_table (Nat.le_trans length small)
      (Nat.lt_of_le_of_lt length word) (sharedStaged.perm (sortStaged_perm staged))
    exact ⟨_, rfl, bytes, writes_map.mpr ⟨staged, stages, written⟩, most⟩

/-! ## One level -/

theorem normalises_parameter (below : Normalises decodeItem encodeItem) :
    (decodeParameter limits decodeItem).Normalises (encodeParameter limits encodeItem)
      fun parameter => ∀ fallback ∈ parameter.fallback, fallback.Sound := by
  refine (yields_text limits _).bind fun name nameTaken nameFits => ?_
  refine yields_boolean.bind fun optional taken width => ?_
  subst width
  split
  · refine below.last fun fallback taken read => ⟨?_, ?_⟩
    · rintro _ ⟨⟩
      exact read.1
    · simp only [encodeParameter, Encoder.append_assoc]
      exact nameFits.append ((within_boolean _).append read.2)
  · refine .pure ⟨fun fallback listed => (Option.not_mem_none fallback listed).elim, ?_⟩
    simp only [encodeParameter, Encoder.append_assoc]
    exact nameFits.append ((within_boolean _).append within_nothing)

/-- A body that is read one level below a tag is written one level below it. -/
theorem normalises_inside {decoder : Option (Decoder Literal)}
    {encoder : Option (Literal → Encoder)} (below : Option.Rel Normalises decoder encoder)
    {decodeBody : Decoder Literal → Decoder Literal} {result : Literal → Nat → Prop}
    (body : ∀ decodeItem encodeItem, encoder = some encodeItem →
      Normalises decodeItem encodeItem → (decodeBody decodeItem).Yields result) :
    (decodeInside limits decoder decodeBody).Yields result := by
  cases below with
  | none => exact .throw
  | some normalises => exact body _ _ rfl normalises

/-- A literal is written again within what was taken for it if the literals one level below are. -/
theorem normalises_decodeWith {decoder : Option (Decoder Literal)}
    {encoder : Option (Literal → Encoder)} (below : Option.Rel Normalises decoder encoder) :
    Normalises (decodeWith limits decoder) (encodeWith limits encoder) := by
  refine yields_word32.bind fun code tagTaken width => ?_
  subst width
  -- Whatever the tag on the wire is, the tag of the value takes the same four bytes.
  split
  · exact .throw
  · refine (normalises_integer limits).last fun value taken fits => ?_
    exact ⟨.scalar trivial, (within_word32 _).append fits⟩
  · refine yields_boolean.last fun value taken width => ?_
    exact ⟨.scalar trivial, (within_word32 _).append (width ▸ within_boolean value)⟩
  · refine (yields_bytes limits _).last fun value taken whole => ?_
    obtain ⟨rfl, small, word⟩ := whole
    exact ⟨.scalar trivial, (within_word32 _).append (within_bytes small word)⟩
  · refine normalises_inside below fun decodeItem encodeItem same normalises => ?_
    refine (normalises_map normalises).weaken fun literal taken read => ?_
    obtain ⟨sound, entries, rfl, fits⟩ := read
    rw [same]
    exact ⟨sound, (within_word32 _).append fits⟩
  · refine yields_word64.last fun bits taken width => ?_
    exact ⟨.scalar trivial, (within_word32 _).append (width ▸ within_word64 bits)⟩
  · refine normalises_inside below fun decodeItem encodeItem same normalises => ?_
    refine (normalises.table _ _).last fun items taken read => ?_
    rw [same]
    exact ⟨.intro trivial trivial read.1, (within_word32 _).append read.2⟩
  · refine (yields_text limits _).last fun value taken fits => ?_
    exact ⟨.scalar trivial, (within_word32 _).append fits⟩
  · refine yields_int64.last fun value taken width => ?_
    exact ⟨.scalar trivial, (within_word32 _).append (width ▸ within_int64 value)⟩
  · refine yields_word64.last fun value taken width => ?_
    subst width
    rw [ofUnsigned]
    split
    · exact ⟨.scalar trivial, (within_word32 _).append (within_int64 _)⟩
    · rename_i wide
      have needs : needsUnsigned value.toNat = true := by
        have bound := value.toNat_lt
        simp only [needsUnsigned, Bool.and_eq_true, decide_eq_true_eq]
        omega
      have fits : (if needsUnsigned value.toNat then word64 (UInt64.ofNat (value.toNat : Int).toNat)
          else encodeInteger limits value.toNat).WritesWithin 8 := by
        rw [if_pos needs]
        exact within_word64 _
      exact ⟨.scalar trivial, (within_word32 _).append fits⟩
  · refine normalises_inside below fun decodeItem encodeItem same normalises => ?_
    refine (yields_text limits _).bind fun scope scopeTaken scopeFits => ?_
    refine ((normalises_parameter normalises).table _ _).bind fun parameters taken read => ?_
    refine (Block.normalises_decodeWith normalises).last fun body bodyTaken readBody => ?_
    rw [same]
    constructor
    · refine .intro trivial readBody.1.here fun child found => ?_
      rcases List.mem_append.mp found with listed | pooled
      · obtain ⟨parameter, among, fallback⟩ := List.mem_filterMap.mp listed
        exact read.1 parameter among child fallback
      · exact readBody.1.below child pooled
    · have written := scopeFits.append (read.2.append readBody.2)
      rw [← Encoder.append_assoc] at written
      exact (within_word32 _).append written
  · refine normalises_inside below fun decodeItem encodeItem same normalises => ?_
    refine (yields_text limits _).bind fun scope scopeTaken scopeFits => ?_
    refine (Block.normalises_decodeWith normalises).last fun body bodyTaken readBody => ?_
    rw [same]
    refine ⟨.intro trivial readBody.1.here readBody.1.below, (within_word32 _).append ?_⟩
    exact scopeFits.append readBody.2

/-! ## All levels -/

theorem normalises_within (limits : Limits) (levels : Nat) :
    Normalises (decodeWithin limits levels) (encodeWithin limits levels) := by
  induction levels with
  | zero => exact normalises_decodeWith .none
  | succ levels normalises => exact normalises_decodeWith (.some normalises)

/-- **Every literal that is read is sound, and is written again within the bytes that were
taken.** -/
theorem normalises_decode (limits : Limits) : Normalises (decode limits) (encode limits) :=
  normalises_within limits limits.maxDepth

end Literal

/-- **Every block that is read is sound, and is written again within the bytes that were taken.** -/
theorem Block.normalises_decode (limits : Limits) :
    (decode limits).Normalises (encode limits) Block.Sound :=
  normalises_decodeWith (Literal.normalises_decode limits)

end CompiledScript
