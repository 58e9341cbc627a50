import CompiledScript.Container.Codec
import CompiledScript.Proofs.Container.Room
import CompiledScript.Proofs.Literal.Recovery
import CompiledScript.Proofs.Wire.Demand

/-!
# Reading containers that were only partly written

Every decoder of the format demands what the encoder of its values writes, whatever
the bounds on either side.  The encoder may fail in the middle of any section, since a
length exceeds its bound, since a literal nests too deeply, since a block has too many
locals or since the sink is full; in each case the decoder is left with a tag, a length
or an item that it still has to read.

Levels of nesting are counted on both sides separately.  Where the encoder has no level
left it stops behind a tag, and a decoder that may go on misses the length that has to
follow; where the decoder has no level left it refuses.  The keys of a map are written
as they were staged, so a decoder takes them for literals, and that a key breaks off
only when the sink is full is what the steadiness of the encoder says.
-/

set_option autoImplicit false

namespace CompiledScript

open Decoder

variable {limits others : Limits}

/-! ## Records without literals -/

namespace Auxiliary

theorem demands_slots (what : String) (slots : List UInt32) :
    (decodeSlots others what).Demands (encodeSlots limits what slots) fun _ => True :=
  demands_table fun slot _ => (demands_word32 slot).weaken fun _ _ => trivial

section Jumps

variable {κ : Type} [JumpKey κ] [DecidableEq κ] {encodeKey : κ → Encoder} {decodeKey : Decoder κ}
  {keyText : κ → String}

theorem demands_entries (demands : ∀ key, decodeKey.Demands (encodeKey key) fun _ => True)
    (entries : List (κ × Int32)) (read : JumpTable κ) :
    (decodeEntries decodeKey keyText entries.length read).Demands
      (Encoder.each entries fun entry => encodeKey entry.1 ++ Encoder.word32 entry.2.toUInt32)
      fun _ => True := by
  induction entries generalizing read with
  | nil => exact .pure trivial
  | cons entry entries ih =>
    rw [Encoder.each, Encoder.append_assoc]
    refine (demands entry.1).bind fun key _ => ?_
    refine (demands_word32 _).bind fun offset _ => ?_
    split
    · exact .throw _
    · exact ih _

theorem demands_jumps (demands : ∀ key, decodeKey.Demands (encodeKey key) fun _ => True)
    (table : JumpTable κ) :
    (decodeJumps others decodeKey keyText).Demands (encodeJumps limits encodeKey table)
      fun _ => True := by
  refine (demands_count _ _ _ _ _).bind ?_
  rintro _ rfl
  exact demands_entries demands table.entries .empty

end Jumps

theorem demands_loop (layout : ForeachLayout) (loop : ForeachLoop) :
    (decodeLoop others layout).Demands (encodeLoop limits loop) fun _ => True := by
  simp only [encodeLoop, Encoder.table, Encoder.append_assoc]
  refine (demands_count _ _ _ _ _).bind ?_
  rintro _ rfl
  refine (demands_word32 _).bind fun counter _ => (demands_word32 _).bind fun firstValue _ => ?_
  refine (demands_countWord _ _ _).bind fun second same => ?_
  rw [if_neg (not_not_intro same)]
  have lists : (times loop.lists.length (decodeSlots others "foreach vars")).Demands
      (Encoder.each loop.lists (encodeSlots limits "foreach vars")) fun _ => True :=
    demands_times fun slots _ => demands_slots _ slots
  exact lists.last fun _ _ => trivial

theorem demands_decode (record : Auxiliary) :
    (decode others).Demands (encode limits record) fun _ => True := by
  refine (demands_word32 _).bind ?_
  rintro _ rfl
  rw [Tag.ofCode?_code]
  cases record with
  | textJumps table =>
    exact (demands_jumps (demands_text _) table).last fun _ _ => trivial
  | integerJumps table =>
    refine (demands_jumps (fun key => ?_) table).last fun _ _ => trivial
    exact (demands_int64 key).weaken fun _ _ => trivial
  | dictUpdate slots => exact (demands_slots _ slots).last fun _ _ => trivial
  | «foreach» loop =>
    rcases loop with ⟨_ | _, counter, firstValue, lists⟩
    · exact (demands_loop .legacy _).last fun _ _ => trivial
    · exact (demands_loop .current _).last fun _ _ => trivial

end Auxiliary

theorem ExceptionRange.demands_decode (range : ExceptionRange) :
    decode.Demands range.encode fun _ => True := by
  simp only [encode, Encoder.append_assoc]
  refine (demands_word32 _).bind fun code _ => ?_
  simp only
  split
  · exact .throw _
  · refine (demands_word32 _).bind fun level _ => (demands_word32 _).bind fun offset _ => ?_
    refine (demands_word32 _).bind fun length _ => (demands_word32 _).bind fun onContinue _ => ?_
    refine (demands_word32 _).bind fun onBreak _ => ?_
    exact (demands_word32 _).last fun _ _ => trivial

/-! ## Literals and blocks -/

/-- A decoder of literals demands what an encoder of literals writes, and the encoder goes on
writing as far as the sink goes. -/
def Literal.Followed (encodeItem : Literal → Encoder) (decodeItem : Decoder Literal) : Prop :=
  ∀ literal, (encodeItem literal).Steady ∧ decodeItem.Demands (encodeItem literal) fun _ => True

theorem Block.demands_decodeWith {encodeLiteral : Literal → Encoder}
    {decodeLiteral : Decoder Literal} (below : Literal.Followed encodeLiteral decodeLiteral)
    (block : Block) :
    (decodeWith others decodeLiteral).Demands (block.encodeWith limits encodeLiteral)
      fun _ => True := by
  simp only [encodeWith, Encoder.append_assoc]
  refine (demands_count _ _ _ _ _).bind ?_
  rintro _ rfl
  refine (demands_run block.code).bind fun code _ => ?_
  refine (demands_table fun literal _ => (below literal).2).bind fun literals _ => ?_
  refine (demands_table fun record _ => Auxiliary.demands_decode record).bind
    fun auxiliaries _ => ?_
  refine (demands_table fun range _ => ExceptionRange.demands_decode range).bind
    fun exceptions _ => ?_
  refine (demands_word32 _).bind fun maxStack _ => (demands_word32 _).bind fun reserved _ => ?_
  split
  · exact (demands_word32 _).last fun _ _ => trivial
  · exact .fail (refuses_word32.bind _)

namespace Literal

theorem demands_integer (value : Int) :
    (decodeInteger others).Demands (encodeInteger limits value) fun _ => True := by
  refine (demands_byte _).bind fun sign _ => ?_
  split
  · exact .throw _
  · exact (demands_bytes _ _).last fun _ _ => trivial

theorem demands_parameter {encodeItem : Literal → Encoder} {decodeItem : Decoder Literal}
    (below : Followed encodeItem decodeItem) (parameter : Parameter) :
    (decodeParameter others decodeItem).Demands (encodeParameter limits encodeItem parameter)
      fun _ => True := by
  simp only [encodeParameter, Encoder.append_assoc]
  refine (demands_text _ _).bind fun name _ => (demands_boolean _).bind ?_
  rintro _ rfl
  rcases parameter with ⟨name, _ | fallback⟩
  · exact .pure trivial
  · exact (below fallback).2.last fun _ _ => trivial

/-- A staged key is read as the literal that it was staged for. -/
theorem demands_key {encodeItem : Literal → Encoder} {decodeItem : Decoder Literal}
    (below : Followed encodeItem decodeItem) {key : Literal} {bytes : Bytes}
    (staged : (encodeItem key).Writes bytes) :
    decodeItem.Demands (Encoder.raw bytes) fun _ => True := by
  obtain ⟨steady, demands⟩ := below key
  rw [Encoder.Writes.iff_into] at staged
  -- Into a sink of any room the run of bytes goes as far as the key itself would.
  have same : ∀ room, (Encoder.raw bytes).into room = (encodeItem key).into room := by
    intro room
    cases room with
    | none => exact staged.symm
    | some left =>
      rw [steady left, staged]
      rfl
  constructor
  · intro room written taken
    exact demands.whole ((same room).symm.trans taken)
  · intro room written error failed
    exact demands.broken ((same room).symm.trans failed)

/-- The entries of a map are demanded in the order in which they are written. -/
theorem demands_map {encodeItem : Literal → Encoder} {decodeItem : Decoder Literal}
    (below : Followed encodeItem decodeItem) (entries : List MapEntry) :
    (table "map" others.maxElements (decodeEntry decodeItem)).Demands
      (encodeMap limits encodeItem entries) fun _ => True := by
  rw [encodeMap]
  cases staging : stageKeys encodeItem entries with
  | error error => exact .fail (refuses_table _ _ _)
  | ok staged =>
    refine demands_table fun entry listed => ?_
    have found : entry ∈ staged := (sortStaged_perm staged).mem_iff.mp listed
    obtain ⟨origin, -, key, -⟩ := Pairing.origin (stageKeys_iff.mp staging) found
    exact (demands_key below key).bind fun _ _ => (below entry.2).2.last fun _ _ => trivial

/-- The body of a literal that opens a level, on whichever side the levels end first. -/
theorem demands_inside {α : Type} {inner : Option (Literal → Encoder)}
    {deeper : Option (Decoder Literal)}
    (below : ∀ encodeItem ∈ inner, ∀ decodeItem ∈ deeper, Followed encodeItem decodeItem)
    {write : (Literal → Encoder) → Encoder} {read : Decoder Literal → Decoder α}
    (hungry : ∀ decodeItem, (read decodeItem).Refuses [])
    (demands : ∀ encodeItem decodeItem, Followed encodeItem decodeItem →
      (read decodeItem).Demands (write encodeItem) fun _ => True) :
    (decodeInside others deeper read).Demands (encodeInside limits inner write)
      fun _ => True := by
  cases deeper with
  | none => exact .throw _
  | some decodeItem =>
    cases inner with
    | none => exact .fail (hungry decodeItem)
    | some encodeItem => exact demands _ _ (below encodeItem rfl decodeItem rfl)

/-- A literal is demanded if the literals one level below are. -/
theorem demands_decodeWith {inner : Option (Literal → Encoder)} (deeper : Option (Decoder Literal))
    (below : ∀ encodeItem ∈ inner, ∀ decodeItem ∈ deeper, Followed encodeItem decodeItem)
    (literal : Literal) :
    (decodeWith others deeper).Demands (encodeWith limits inner literal) fun _ => True := by
  refine (demands_word32 _).bind ?_
  rintro _ rfl
  rw [Tag.ofCode?_code]
  cases literal with
  | int value => exact (demands_int64 value).last fun _ _ => trivial
  | bigInt value =>
    by_cases wide : needsUnsigned value = true
    · simp only [tag, wide, if_true]
      exact (demands_word64 _).last fun _ _ => trivial
    · simp only [tag, wide]
      exact (demands_integer value).last fun _ _ => trivial
  | boolean value => exact (demands_boolean value).last fun _ _ => trivial
  | bytes value => exact (demands_bytes _ value).last fun _ _ => trivial
  | map entries =>
    refine demands_inside below (fun decodeItem => ?_) fun encodeItem decodeItem followed => ?_
    · exact (refuses_table _ _ _).bind _
    · exact (demands_map followed entries).last fun _ _ => trivial
  | double bits => exact (demands_word64 bits).last fun _ _ => trivial
  | list items =>
    refine demands_inside below (fun decodeItem => ?_) fun encodeItem decodeItem followed => ?_
    · exact (refuses_table _ _ _).bind _
    · exact (demands_table fun item _ => (followed item).2).last fun _ _ => trivial
  | text value => exact (demands_text _ value).last fun _ _ => trivial
  | closure scope parameters body =>
    refine demands_inside below (fun decodeItem => ?_) fun encodeItem decodeItem followed => ?_
    · exact (refuses_text _ _).bind _
    · rw [Encoder.append_assoc]
      refine (demands_text _ _).bind fun scope _ => ?_
      refine (demands_table fun parameter _ => demands_parameter followed parameter).bind
        fun parameters _ => ?_
      exact (Block.demands_decodeWith followed body).last fun _ _ => trivial
  | block scope body =>
    refine demands_inside below (fun decodeItem => ?_) fun encodeItem decodeItem followed => ?_
    · exact (refuses_text _ _).bind _
    · refine (demands_text _ _).bind fun scope _ => ?_
      exact (Block.demands_decodeWith followed body).last fun _ _ => trivial

/-- Literals are demanded whatever the levels on either side. -/
theorem followed_within (limits others : Limits) (levels more : Nat) :
    Followed (encodeWithin limits levels) (decodeWithin others more) := by
  induction levels generalizing more with
  | zero =>
    intro literal
    refine ⟨steady_within limits 0 literal, ?_⟩
    have base : ∀ deeper : Option (Decoder Literal),
        (decodeWith others deeper).Demands (encodeWith limits none literal) fun _ => True :=
      fun deeper => demands_decodeWith deeper (fun encodeItem below => by cases below) literal
    cases more with
    | zero => exact base none
    | succ more => exact base (some (decodeWithin others more))
  | succ levels ih =>
    intro literal
    refine ⟨steady_within limits (levels + 1) literal, ?_⟩
    cases more with
    | zero =>
      exact demands_decodeWith none (fun _ _ decodeItem below => by cases below) literal
    | succ more =>
      refine demands_decodeWith (some (decodeWithin others more)) ?_ literal
      intro encodeItem given decodeItem taken
      cases given
      cases taken
      exact ih more

theorem followed_encode (limits others : Limits) :
    Followed (encode limits) (decode others) :=
  followed_within limits others limits.maxDepth others.maxDepth

end Literal

theorem Block.demands_decode (block : Block) :
    (decode others).Demands (block.encode limits) fun _ => True :=
  demands_decodeWith (Literal.followed_encode limits others) block

/-! ## Entries and headers -/

theorem ProcedureEntry.demands_decode (entry : ProcedureEntry) :
    (decode others).Demands (entry.encode limits) fun _ => True := by
  simp only [encode, Encoder.append_assoc]
  refine (demands_text _ _).bind fun name _ => (demands_text _ _).bind fun scope _ => ?_
  refine (demands_text _ _).bind fun arguments _ => ?_
  exact (Block.demands_decode entry.body).last fun _ _ => trivial

theorem ClassEntry.demands_decode (entry : ClassEntry) :
    (decode others).Demands (entry.encode limits) fun _ => True := by
  refine (demands_text _ _).bind fun name _ => ?_
  have none : (table "superclasses" others.maxElements
      (text others "superclass name")).Demands (Encoder.word32 0) fun _ => True := by
    refine (demands_zeroCount _ _).settle ?_
    rintro _ rfl
    exact .pure trivial
  exact none.last fun _ _ => trivial

theorem MethodEntry.demands_decode (entry : MethodEntry) :
    (decode others).Demands (entry.encode limits) fun _ => True := by
  simp only [encode, Encoder.append_assoc]
  refine (demands_text _ _).bind fun className _ => (demands_byte _).bind ?_
  rintro _ rfl
  rw [MethodKind.ofCode?_code]
  refine (demands_text _ _).bind fun name _ => (demands_text _ _).bind fun arguments _ => ?_
  refine (demands_zeroCount _ _).bind ?_
  rintro _ rfl
  refine .test (.of_reads (reads_run [])) fun bodyText _ => ?_
  exact (Block.demands_decode entry.body).last fun _ _ => trivial

namespace Header

theorem demands_decode (header : Header) : decode.Demands header.encode fun _ => True := by
  simp only [encode, Encoder.append_assoc]
  refine (demands_word32 _).bind fun magic _ => ?_
  simp only
  split
  · exact .throw_bind _ _
  · refine (demands_word32 _).bind fun format _ => ?_
    split
    · exact .throw_bind _ _
    · refine (demands_word32 _).bind fun runtime _ => (demands_word64 _).bind fun code _ => ?_
      refine (demands_word32 _).bind fun commands _ => (demands_word32 _).bind fun ranges _ => ?_
      refine (demands_word32 _).bind fun literals _ => (demands_word32 _).bind fun records _ => ?_
      refine (demands_word32 _).bind fun locals _ => ?_
      exact (demands_word32 _).last fun _ _ => trivial

theorem demands_decodeFor (running : RuntimeVersion) (header : Header) :
    (decodeFor running).Demands header.encode fun _ => True := by
  refine (demands_decode header).settle fun found _ => ?_
  split
  · exact .pure trivial
  · exact .throw _ _

end Header

end CompiledScript
