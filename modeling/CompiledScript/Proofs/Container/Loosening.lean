import CompiledScript.Container.Codec
import CompiledScript.Proofs.Steps
import CompiledScript.Proofs.Wire.Loosening

/-!
# Reading values under looser bounds

Every kind of value is read under looser bounds as it is under tighter ones,
unless the tighter ones are exceeded.  The depth of nesting is one of the bounds,
so for literals the comparison is an induction on the levels that the tighter
bounds allow.

As a consequence a run of bytes never holds two containers, whatever the bounds
and the versions it is read with.
-/

set_option autoImplicit false

namespace CompiledScript

open Decoder

variable {tight loose : Limits}

/-! ## Records without literals -/

namespace Auxiliary

theorem loosens_slots (within : tight.Within loose) (what : String) :
    (decodeSlots tight what).Loosens (decodeSlots loose what) :=
  loosens_table within.maxElements (.refl _)

section Jumps

variable {κ : Type} [JumpKey κ] [DecidableEq κ]

theorem loosens_entries {keyText : κ → String} {decodeKey recodeKey : Decoder κ}
    (loosens : decodeKey.Loosens recodeKey) (count : Nat) (read : JumpTable κ) :
    (decodeEntries decodeKey keyText count read).Loosens
      (decodeEntries recodeKey keyText count read) := by
  induction count generalizing read with
  | zero => exact .refl _
  | succ count ih =>
    refine loosens.bind fun key => .bind_right word32 fun offset => ?_
    split
    · exact .refl _
    · exact ih _

theorem loosens_jumps (within : tight.Within loose) {keyText : κ → String}
    {decodeKey recodeKey : Decoder κ} (loosens : decodeKey.Loosens recodeKey) :
    (decodeJumps tight decodeKey keyText).Loosens (decodeJumps loose recodeKey keyText) :=
  (loosens_count within.maxElements).bind fun count => loosens_entries loosens count _

end Jumps

theorem loosens_loop (within : tight.Within loose) (layout : ForeachLayout) :
    (decodeLoop tight layout).Loosens (decodeLoop loose layout) := by
  refine (loosens_count within.maxElements).bind fun count => ?_
  refine .bind_right word32 fun counter => .bind_right word32 fun firstValue => ?_
  refine .bind_right word32 fun second => ?_
  split
  · exact .refl _
  · exact (loosens_times (loosens_slots within _) count).bind_left _

theorem loosens_decode (within : tight.Within loose) : (decode tight).Loosens (decode loose) := by
  refine .bind_right word32 fun code => ?_
  split
  · exact .refl _
  · exact (loosens_jumps within (loosens_text within _)).bind_left _
  · exact (loosens_jumps within (.refl _)).bind_left _
  · exact (loosens_slots within _).bind_left _
  · exact (loosens_loop within .legacy).bind_left _
  · exact (loosens_loop within .current).bind_left _

end Auxiliary

/-! ## Literals and blocks -/

theorem Block.loosens_decodeWith (within : tight.Within loose)
    {decodeLiteral recodeLiteral : Decoder Literal} (below : decodeLiteral.Loosens recodeLiteral) :
    (decodeWith tight decodeLiteral).Loosens (decodeWith loose recodeLiteral) := by
  refine (loosens_count within.maxCodeLength).bind fun length => ?_
  refine .bind_right (run length) fun code => ?_
  refine (loosens_table within.maxLiterals below).bind fun literals => ?_
  refine (loosens_table within.maxAuxiliaries (Auxiliary.loosens_decode within)).bind
    fun auxiliaries => ?_
  exact (loosens_table within.maxExceptions (.refl _)).bind_left _

namespace Literal

theorem loosens_integer (within : tight.Within loose) :
    (decodeInteger tight).Loosens (decodeInteger loose) := by
  refine .bind_right byte fun sign => ?_
  split
  · exact .refl _
  · exact (loosens_bytes within _).bind_left _

theorem loosens_parameter (within : tight.Within loose) {decodeItem recodeItem : Decoder Literal}
    (below : decodeItem.Loosens recodeItem) :
    (decodeParameter tight decodeItem).Loosens (decodeParameter loose recodeItem) := by
  refine (loosens_text within _).bind fun name => .bind_right Decoder.boolean fun optional => ?_
  split
  · exact below.bind_left _
  · exact .refl _

/-- Where the tighter bounds allow a further level, so do the looser ones. -/
inductive Deeper : Option (Decoder Literal) → Option (Decoder Literal) → Prop where
  | none (recodeItem : Option (Decoder Literal)) : Deeper none recodeItem
  | some {decodeItem recodeItem : Decoder Literal} (below : decodeItem.Loosens recodeItem) :
      Deeper (some decodeItem) (some recodeItem)

theorem loosens_inside {α : Type} {inner deeper : Option (Decoder Literal)}
    (below : Deeper inner deeper) {body further : Decoder Literal → Decoder α}
    (loosens : ∀ decodeItem recodeItem, decodeItem.Loosens recodeItem →
      (body decodeItem).Loosens (further recodeItem)) :
    (decodeInside tight inner body).Loosens (decodeInside loose deeper further) := by
  cases below with
  | none deeper => exact .stop (show FormatError.IsBound (.nestingTooDeep _) from trivial) _
  | some below => exact loosens _ _ below

theorem loosens_decodeWith (within : tight.Within loose) {inner deeper : Option (Decoder Literal)}
    (below : Deeper inner deeper) :
    (decodeWith tight inner).Loosens (decodeWith loose deeper) := by
  refine .bind_right word32 fun code => ?_
  split
  · exact .refl _
  · exact (loosens_integer within).bind_left _
  · exact .refl _
  · exact (loosens_bytes within _).bind_left _
  · refine loosens_inside below fun decodeItem recodeItem loosens => ?_
    refine (loosens_table within.maxElements ?_).bind_left _
    exact loosens.bind fun key => loosens.bind_left _
  · exact .refl _
  · refine loosens_inside below fun decodeItem recodeItem loosens => ?_
    exact (loosens_table within.maxElements loosens).bind_left _
  · exact (loosens_text within _).bind_left _
  · exact .refl _
  · exact .refl _
  · refine loosens_inside below fun decodeItem recodeItem loosens => ?_
    refine (loosens_text within _).bind fun scope => ?_
    refine (loosens_table within.maxElements (loosens_parameter within loosens)).bind
      fun parameters => ?_
    exact (Block.loosens_decodeWith within loosens).bind_left _
  · refine loosens_inside below fun decodeItem recodeItem loosens => ?_
    refine (loosens_text within _).bind fun scope => ?_
    exact (Block.loosens_decodeWith within loosens).bind_left _

theorem loosens_within (within : tight.Within loose) {levels more : Nat} (deeper : levels ≤ more) :
    (decodeWithin tight levels).Loosens (decodeWithin loose more) := by
  induction levels generalizing more with
  | zero =>
    cases more with
    | zero => exact loosens_decodeWith within (.none _)
    | succ more => exact loosens_decodeWith within (.none _)
  | succ levels ih =>
    cases more with
    | zero => omega
    | succ more => exact loosens_decodeWith within (.some (ih (by omega)))

theorem loosens_decode (within : tight.Within loose) : (decode tight).Loosens (decode loose) :=
  loosens_within within within.maxDepth

end Literal

theorem Block.loosens_decode (within : tight.Within loose) :
    (decode tight).Loosens (decode loose) :=
  loosens_decodeWith within (Literal.loosens_decode within)

/-! ## Containers -/

theorem ProcedureEntry.loosens_decode (within : tight.Within loose) :
    (decode tight).Loosens (decode loose) := by
  refine (loosens_text within _).bind fun name => (loosens_text within _).bind fun scope => ?_
  refine (loosens_text within _).bind fun arguments => ?_
  exact (Block.loosens_decode within).bind_left _

theorem ClassEntry.loosens_decode (within : tight.Within loose) :
    (decode tight).Loosens (decode loose) := by
  refine (loosens_text within _).bind fun name => ?_
  exact (loosens_table within.maxElements (loosens_text within _)).bind_left _

theorem MethodEntry.loosens_decode (within : tight.Within loose) :
    (decode tight).Loosens (decode loose) := by
  refine (loosens_text within _).bind fun className => .bind_right byte fun code => ?_
  split
  · exact .refl _
  · refine (loosens_text within _).bind fun name => ?_
    refine (loosens_text within _).bind fun arguments => ?_
    refine (loosens_count within.maxStringLength).bind fun length => ?_
    refine .bind_right (run length) fun bodyText => ?_
    exact (Block.loosens_decode within).bind_left _

theorem Container.loosens_decode (within : tight.Within loose) (running : RuntimeVersion) :
    (decode tight running).Loosens (decode loose running) := by
  refine .bind_right (Header.decodeFor running) fun header => ?_
  refine (Block.loosens_decode within).bind fun top => ?_
  refine (loosens_table within.maxElements (ProcedureEntry.loosens_decode within)).bind
    fun procedures => ?_
  refine (loosens_table within.maxElements (ClassEntry.loosens_decode within)).bind
    fun classes => ?_
  exact (loosens_table within.maxElements (MethodEntry.loosens_decode within)).bind_left _

/-! ## One container for a run of bytes -/

/-- A header is read for a runtime exactly if it is read and the runtime may load what it
announces. -/
theorem Header.decodeFor_ok {running : RuntimeVersion} {input rest : Bytes} {header : Header} :
    decodeFor running input = .ok header rest ↔
      decode input = .ok header rest ∧ running.canLoad header.runtime = true := by
  constructor
  · intro read
    obtain ⟨found, middle, read, checked⟩ := Steps.of_bind read
    simp only [checkRuntime] at checked
    by_cases loads : running.canLoad found.runtime = true
    · rw [if_pos loads] at checked
      cases checked
      exact ⟨read, loads⟩
    · rw [if_neg loads] at checked
      cases checked
  · rintro ⟨read, loads⟩
    refine (Steps.bind_ok read).trans ?_
    simp only [checkRuntime, loads, if_true]
    rfl

/-- What is read behind a header does not depend on the runtime, which only decides whether it is
read at all. -/
theorem Container.decode_unique_of_limits {limits : Limits} {running version : RuntimeVersion}
    {input rest left : Bytes} {first second : Container}
    (one : decode limits running input = .ok first rest)
    (two : decode limits version input = .ok second left) : first = second ∧ rest = left := by
  obtain ⟨header, middle, read, one⟩ := Steps.of_bind one
  obtain ⟨another, between, reread, two⟩ := Steps.of_bind two
  rw [Header.decodeFor_ok] at read reread
  rw [read.1] at reread
  cases reread.1
  rw [one] at two
  cases two
  exact ⟨rfl, rfl⟩

/-- **A run of bytes holds at most one container**, whatever the bounds and the runtimes it is
read with. -/
theorem Container.decode_unique {limits others : Limits} {running version : RuntimeVersion}
    {input rest left : Bytes} {first second : Container}
    (one : decode limits running input = .ok first rest)
    (two : decode others version input = .ok second left) : first = second ∧ rest = left := by
  obtain ⟨loose, within, withinToo⟩ := Limits.exists_common limits others
  exact decode_unique_of_limits ((loosens_decode within running).accepts one)
    ((loosens_decode withinToo version).accepts two)

end CompiledScript
