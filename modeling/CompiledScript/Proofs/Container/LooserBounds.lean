import CompiledScript.Proofs.Container.Loosening
import CompiledScript.Proofs.Container.Recovery
import CompiledScript.Proofs.Container.Room

/-!
# Results under looser bounds

Looser bounds change no result that was reached under tighter ones.  For reading this
is the comparison of decoders that stop at a bound; for writing it is shown here.  A
writer consults its bounds at the same places as a reader does: wherever it announces
a length, and wherever it goes one level deeper into a literal.  Where all of these are
within the tighter bounds, nothing else that it does depends on the bounds, so it
writes the same bytes under the looser ones.

A map is written in two steps.  Its keys are encoded on their own before any of them is
written, and the order in which its entries are written follows from the bytes of the
keys.  Since the keys are encoded to the same bytes, what is staged for the map is the
same list under both bounds, and so is its order.

Together with the recovery of what was written this says that values travel from
tighter bounds to looser ones unchanged.
-/

set_option autoImplicit false

namespace CompiledScript

variable {tight loose : Limits}

/-! ## Where bounds are consulted -/

namespace Encoder

theorem relaxes_count {less more : Nat} (within : less ≤ more) (what : String) (length : Nat) :
    (count what length less).Entails (count what length more) := by
  intro bytes written
  obtain ⟨small, fits, same⟩ := writes_count.mp written
  exact writes_count.mpr ⟨Nat.le_trans small within, fits, same⟩

theorem relaxes_bytes (within : tight.Within loose) (what : String) (value : Bytes) :
    (bytes tight what value).Entails (bytes loose what value) :=
  (relaxes_count within.maxStringLength what _).append (.refl _)

theorem relaxes_text (within : tight.Within loose) (what value : String) :
    (text tight what value).Entails (text loose what value) :=
  relaxes_bytes within what _

theorem relaxes_table {α : Type} {less more : Nat} (within : less ≤ more)
    {encode recode : α → Encoder} (relaxes : ∀ item, (encode item).Entails (recode item))
    (what : String) (items : List α) :
    (table what less items encode).Entails (table what more items recode) := by
  apply (relaxes_count within what items.length).append
  apply Entails.each
  rw [List.forall₂_same]
  intro item _
  exact relaxes item

end Encoder

open Encoder

/-! ## Records without literals -/

namespace Auxiliary

theorem relaxes_slots (within : tight.Within loose) (what : String) (slots : List UInt32) :
    (encodeSlots tight what slots).Entails (encodeSlots loose what slots) :=
  relaxes_table within.maxElements (fun _ => .refl _) what slots

theorem relaxes_jumps (within : tight.Within loose) {κ : Type} [JumpKey κ]
    {encodeKey recodeKey : κ → Encoder} (relaxes : ∀ key, (encodeKey key).Entails (recodeKey key))
    (table : JumpTable κ) :
    (encodeJumps tight encodeKey table).Entails (encodeJumps loose recodeKey table) := by
  apply relaxes_table within.maxElements
  intro entry
  exact (relaxes entry.1).append (.refl _)

theorem relaxes_loop (within : tight.Within loose) (loop : ForeachLoop) :
    (encodeLoop tight loop).Entails (encodeLoop loose loop) := by
  have lists := relaxes_table within.maxElements (relaxes_slots within "foreach vars")
    "foreach lists" loop.lists
  have count := relaxes_count within.maxElements "foreach lists" loop.lists.length
  exact ((count.append (.refl _)).append (.refl _)).append lists

theorem relaxes_encode (within : tight.Within loose) (record : Auxiliary) :
    (encode tight record).Entails (encode loose record) := by
  refine (Entails.refl _).append ?_
  cases record with
  | textJumps table => exact relaxes_jumps within (relaxes_text within _) table
  | integerJumps table => exact relaxes_jumps within (fun _ => .refl _) table
  | dictUpdate slots => exact relaxes_slots within _ slots
  | «foreach» loop => exact relaxes_loop within loop

end Auxiliary

/-! ## Literals and blocks -/

theorem Block.relaxes_encodeWith (within : tight.Within loose)
    {encodeLiteral recodeLiteral : Literal → Encoder}
    (below : ∀ literal, (encodeLiteral literal).Entails (recodeLiteral literal)) (block : Block) :
    (block.encodeWith tight encodeLiteral).Entails (block.encodeWith loose recodeLiteral) := by
  simp only [encodeWith, Encoder.append_assoc]
  apply (relaxes_count within.maxCodeLength _ _).append
  apply (Entails.refl _).append
  apply (relaxes_table within.maxLiterals below _ _).append
  apply (relaxes_table within.maxAuxiliaries (Auxiliary.relaxes_encode within) _ _).append
  apply (relaxes_table within.maxExceptions (fun _ => .refl _) _ _).append
  exact .refl _

namespace Literal

/-- The keys of a map are staged as the same bytes, and so the map is written in the same order. -/
theorem relaxes_map (within : tight.Within loose) {encodeItem recodeItem : Literal → Encoder}
    (below : ∀ literal, (encodeItem literal).Entails (recodeItem literal))
    (entries : List MapEntry) :
    (encodeMap tight encodeItem entries).Entails (encodeMap loose recodeItem entries) := by
  intro bytes written
  obtain ⟨staged, stages, written⟩ := writes_map.mp written
  have restaged : List.Forall₂ (Staged recodeItem) entries staged := by
    refine stages.imp ?_
    intro entry piece stage
    exact ⟨below entry.key piece.1 stage.1, stage.2⟩
  refine writes_map.mpr ⟨staged, restaged, ?_⟩
  refine relaxes_table within.maxElements ?_ _ _ bytes written
  intro piece
  exact (Entails.refl _).append (below piece.2)

theorem relaxes_parameter (within : tight.Within loose) {encodeItem recodeItem : Literal → Encoder}
    (below : ∀ literal, (encodeItem literal).Entails (recodeItem literal))
    (parameter : Parameter) :
    (encodeParameter tight encodeItem parameter).Entails
      (encodeParameter loose recodeItem parameter) := by
  refine ((relaxes_text within _ _).append (.refl _)).append ?_
  cases parameter.fallback with
  | none => exact .refl _
  | some fallback => exact below fallback

/-- Where the tighter bounds leave a further level, the looser ones leave one as well, and the
literals there are written alike. -/
inductive Roomier : Option (Literal → Encoder) → Option (Literal → Encoder) → Prop where
  | none (recodeItem : Option (Literal → Encoder)) : Roomier none recodeItem
  | some {encodeItem recodeItem : Literal → Encoder}
      (below : ∀ literal, (encodeItem literal).Entails (recodeItem literal)) :
      Roomier (some encodeItem) (some recodeItem)

theorem relaxes_inside {inner roomier : Option (Literal → Encoder)} (below : Roomier inner roomier)
    {body further : (Literal → Encoder) → Encoder}
    (relaxes : ∀ encodeItem recodeItem : Literal → Encoder,
      (∀ literal, (encodeItem literal).Entails (recodeItem literal)) →
        (body encodeItem).Entails (further recodeItem)) :
    (encodeInside tight inner body).Entails (encodeInside loose roomier further) := by
  cases below with
  | none roomier =>
    intro bytes written
    exact (not_writes_fail written).elim
  | some below => exact relaxes _ _ below

/-- A literal is written alike if the literals one level below are. -/
theorem relaxes_encodeWith (within : tight.Within loose)
    {inner roomier : Option (Literal → Encoder)} (below : Roomier inner roomier)
    (literal : Literal) :
    (encodeWith tight inner literal).Entails (encodeWith loose roomier literal) := by
  refine (Entails.refl _).append ?_
  cases literal with
  | int value => exact .refl _
  | bigInt value =>
    simp only
    split
    · exact .refl _
    · exact (Entails.refl _).append (relaxes_bytes within _ _)
  | boolean value => exact .refl _
  | bytes value => exact relaxes_bytes within _ value
  | map entries =>
    refine relaxes_inside below ?_
    intro encodeItem recodeItem relaxes
    exact relaxes_map within relaxes entries
  | double bits => exact .refl _
  | list items =>
    refine relaxes_inside below ?_
    intro encodeItem recodeItem relaxes
    exact relaxes_table within.maxElements relaxes _ items
  | text value => exact relaxes_text within _ value
  | closure scope parameters body =>
    refine relaxes_inside below ?_
    intro encodeItem recodeItem relaxes
    have signature := relaxes_table within.maxElements (relaxes_parameter within relaxes)
      "closure args" parameters
    exact ((relaxes_text within _ scope).append signature).append
      (Block.relaxes_encodeWith within relaxes body)
  | block scope body =>
    refine relaxes_inside below ?_
    intro encodeItem recodeItem relaxes
    exact (relaxes_text within _ scope).append (Block.relaxes_encodeWith within relaxes body)

/-- Literals are written alike with at least as many levels. -/
theorem relaxes_within (within : tight.Within loose) {levels more : Nat} (deeper : levels ≤ more)
    (literal : Literal) :
    (encodeWithin tight levels literal).Entails (encodeWithin loose more literal) := by
  induction levels generalizing more literal with
  | zero =>
    cases more with
    | zero => exact relaxes_encodeWith within (.none _) literal
    | succ more => exact relaxes_encodeWith within (.none _) literal
  | succ levels ih =>
    obtain ⟨more, rfl⟩ : ∃ further, more = further + 1 := ⟨more - 1, by omega⟩
    refine relaxes_encodeWith within (.some ?_) literal
    intro item
    exact ih (by omega) item

theorem relaxes_encode (within : tight.Within loose) (literal : Literal) :
    (literal.encode tight).Entails (literal.encode loose) :=
  relaxes_within within within.maxDepth literal

end Literal

theorem Block.relaxes_encode (within : tight.Within loose) (block : Block) :
    (block.encode tight).Entails (block.encode loose) :=
  block.relaxes_encodeWith within (Literal.relaxes_encode within)

/-! ## Containers -/

theorem ProcedureEntry.relaxes_encode (within : tight.Within loose) (entry : ProcedureEntry) :
    (entry.encode tight).Entails (entry.encode loose) := by
  simp only [encode, Encoder.append_assoc]
  apply (relaxes_text within _ _).append
  apply (relaxes_text within _ _).append
  apply (relaxes_text within _ _).append
  exact Block.relaxes_encode within entry.body

theorem ClassEntry.relaxes_encode (within : tight.Within loose) (entry : ClassEntry) :
    (entry.encode tight).Entails (entry.encode loose) :=
  (relaxes_text within _ _).append (.refl _)

theorem MethodEntry.relaxes_encode (within : tight.Within loose) (entry : MethodEntry) :
    (entry.encode tight).Entails (entry.encode loose) := by
  simp only [encode, Encoder.append_assoc]
  apply (relaxes_text within _ _).append
  apply (Entails.refl _).append
  apply (relaxes_text within _ _).append
  apply (relaxes_text within _ _).append
  exact (Entails.refl _).append (Block.relaxes_encode within entry.body)

theorem Container.relaxes_encode (within : tight.Within loose) (container : Container) :
    (container.encode tight).Entails (container.encode loose) := by
  simp only [encode, Encoder.append_assoc]
  apply (Entails.refl _).append
  apply (Block.relaxes_encode within _).append
  apply (relaxes_table within.maxElements (ProcedureEntry.relaxes_encode within) _ _).append
  apply (relaxes_table within.maxElements (ClassEntry.relaxes_encode within) _ _).append
  exact relaxes_table within.maxElements (MethodEntry.relaxes_encode within) _ _

/-! ## Every kind -/

namespace WireKind

/-- Every kind of value is written alike under looser bounds. -/
theorem relaxes_encode (within : tight.Within loose) (kind : WireKind) (value : kind.Value) :
    (kind.encode tight value).Entails (kind.encode loose value) := by
  cases kind with
  | literal => exact Literal.relaxes_encode within value
  | auxiliary => exact Auxiliary.relaxes_encode within value
  | exceptionRange => exact .refl _
  | block => exact Block.relaxes_encode within value
  | header => exact .refl _
  | procedure => exact ProcedureEntry.relaxes_encode within value
  | className => exact ClassEntry.relaxes_encode within value
  | classNames => exact relaxes_table within.maxElements (ClassEntry.relaxes_encode within) _ value
  | method => exact MethodEntry.relaxes_encode within value
  | container => exact Container.relaxes_encode within value

/-- Every kind of value is read alike under looser bounds, unless the tighter ones are exceeded. -/
theorem loosens_decode (within : tight.Within loose) (running : Option RuntimeVersion)
    (kind : WireKind) : (kind.decode tight running).Loosens (kind.decode loose running) := by
  cases kind with
  | literal => exact Literal.loosens_decode within
  | auxiliary => exact Auxiliary.loosens_decode within
  | exceptionRange => exact .refl _
  | block => exact Block.loosens_decode within
  | header => exact .refl _
  | procedure => exact ProcedureEntry.loosens_decode within
  | className => exact ClassEntry.loosens_decode within
  | classNames => exact Decoder.loosens_table within.maxElements (ClassEntry.loosens_decode within)
  | method => exact MethodEntry.loosens_decode within
  | container => exact Container.loosens_decode within _

/-- **Looser bounds change no result.**  What is read under the tighter bounds is read under the
looser ones as the same value from the same bytes, and so is what is refused for another reason
than a bound; what is written is written as the same bytes, into a sink of any room.  A value
that was written under the tighter bounds is thus read as one value under both, which is equal to
it. -/
theorem results_under_looser_bounds (within : tight.Within loose)
    (running : Option RuntimeVersion) (kind : WireKind) :
    (∀ input value rest, kind.decode tight running input = .ok value rest →
      kind.decode loose running input = .ok value rest) ∧
    (∀ input error rest, kind.decode tight running input = .error error rest →
      ¬ error.IsBound → kind.decode loose running input = .error error rest) ∧
    (∀ value room bytes, (kind.encode tight value).into room = ⟨bytes, none⟩ →
      (kind.encode loose value).into room = ⟨bytes, none⟩) ∧
    ∀ value bytes, kind.WellFormed value → kind.Accepted running value →
      (kind.encode tight value).bytes? = .ok bytes →
        ∃ back, kind.equal value back = true ∧ kind.equal back value = true ∧
          ∀ rest, kind.decode tight running (bytes ++ rest) = .ok back rest ∧
            kind.decode loose running (bytes ++ rest) = .ok back rest := by
  have loosens := kind.loosens_decode within running
  refine ⟨?_, ?_, ?_, ?_⟩
  · intro input value rest read
    exact loosens.accepts read
  · intro input error rest failed other
    rcases loosens input with same | ⟨cause, left, stopped, bound⟩
    · rw [← same, failed]
    · rw [failed] at stopped
      cases stopped
      exact absurd bound other
  · intro value room bytes written
    -- What fits into a sink is the whole output, and this is the same under both bounds.
    have whole : (kind.encode loose value).Writes bytes :=
      kind.relaxes_encode within value bytes ((steady_encode tight kind value).writes written)
    have fits : (kind.encode tight value).into none = ⟨bytes, none⟩ :=
      Writes.iff_into.mp ((steady_encode tight kind value).writes written)
    cases room with
    | none => exact Writes.iff_into.mp whole
    | some left =>
      rw [steady_encode, fits] at written
      rw [steady_encode, Writes.iff_into.mp whole, written]
  · intro value bytes well accepted written
    obtain ⟨back, read, same⟩ := kind.restores_encode tight running well accepted bytes written
    refine ⟨back, ?_, ?_, ?_⟩
    · exact (equal_iff_same well same.wellFormed).mpr same
    · exact (equal_iff_same same.wellFormed well).mpr same.symm
    · intro rest
      exact ⟨read rest, loosens.accepts (read rest)⟩

/-! ### Bounds that are used up -/

/-- Tight bounds. -/
def tightBounds : Limits where
  maxStringLength := 3
  maxCodeLength := 1
  maxLiterals := 1
  maxAuxiliaries := 1
  maxExceptions := 1
  maxElements := 2
  maxDepth := 2

/-- A container that uses up tight bounds: the texts are as long, the pool and the tables as large
and the literals as deep as they may be. -/
def fullContainer : Container where
  header := ⟨containerMagic, formatVersion, ⟨1, 0⟩, 1, 0, 1, 1, 1, 3, 0⟩
  top :=
    { Block.empty with
      code := [7]
      literals := [.map [⟨.text "b", .list [.int 1, .text "xyz"]⟩, ⟨.text "a", .bigInt (-70000)⟩]]
      auxiliaries := [.dictUpdate [1, 2]]
      exceptions := [⟨.loop, 0, 0, 1, 0, 0, 0⟩] }
  procedures := [⟨"::f", "::", "x y", Block.empty⟩, ⟨"::g", "::", "", Block.empty⟩]
  classes := [⟨"::c"⟩]
  methods := [⟨"::c", .method, "m", "", Block.empty⟩]

/-- The container is written under tight bounds and read under the default ones; bytes that are no
container are refused for the same reason under both. -/
theorem results_under_looser_bounds_full :
    tightBounds.Within {} ∧
    (∃ bytes back, (container.encode tightBounds fullContainer).bytes? = .ok bytes ∧
      (container.encode {} fullContainer).into none = ⟨bytes, none⟩ ∧
      container.equal fullContainer back = true ∧
      ∀ rest, container.decode {} none (bytes ++ rest) = .ok back rest) ∧
    container.decode {} none [9, 0, 0, 0, 1] = .error (.invalidMagic 9) [1] := by
  have within : tightBounds.Within {} := by
    constructor <;> decide
  obtain ⟨-, refused, written, recovered⟩ := results_under_looser_bounds within none container
  have words : tightBounds.InWords := by
    constructor <;> decide
  have well : container.WellFormed fullContainer := by decide +kernel
  have accepted : container.Accepted none fullContainer := ⟨rfl, rfl, by decide⟩
  obtain ⟨bytes, output⟩ :=
    (Container.succeeds_encode words fullContainer).mpr (by decide +kernel)
  obtain ⟨back, same, -, read⟩ := recovered fullContainer bytes well accepted output
  refine ⟨within, ⟨bytes, back, output, ?_, same, ?_⟩, refused _ _ _ rfl (fun bound => bound)⟩
  · exact written fullContainer none bytes (Writes.iff_into.mp output)
  · intro rest
    exact (read rest).2

end WireKind

end CompiledScript
