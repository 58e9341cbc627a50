import CompiledScript.Container.Codec
import CompiledScript.Proofs.Wire.Composition

/-!
# The decoders of containers have what their fields have

Between two fields the decoders of the format only branch on what they have read, and
refuse it where it does not follow the format.  So each of them has every compositional
property.  For literals this is an induction on the levels of nesting that may still be
opened.

The one refusal that is not of this kind is that of a foreign runtime.  It is made
behind the header of a container, and whether a container has a property depends on it;
the sections behind the header have it in any case.
-/

set_option autoImplicit false

namespace CompiledScript

open Decoder

namespace Decoder.Compositional

variable {holds : {α : Type} → Decoder α → Prop} {limits : Limits}

/-! ## Records without literals -/

theorem slots (property : Compositional @holds) (limits : Limits) (what : String) :
    holds (Auxiliary.decodeSlots limits what) :=
  property.table property.word32 what _

section Jumps

variable {κ : Type} [JumpKey κ] [DecidableEq κ]

/-- A key that comes twice is refused as one that does not follow the format. -/
theorem entries (property : Compositional @holds) {decodeKey : Decoder κ} (key : holds decodeKey)
    (keyText : κ → String) (count : Nat) (read : JumpTable κ) :
    holds (Auxiliary.decodeEntries decodeKey keyText count read) := by
  induction count generalizing read with
  | zero => exact property.pure read
  | succ count ih =>
    apply property.bind key
    intro value
    apply property.bind property.word32
    intro offset
    split
    · exact property.refuse rfl
    · exact ih _

theorem jumps (property : Compositional @holds) {decodeKey : Decoder κ} (key : holds decodeKey)
    (keyText : κ → String) : holds (Auxiliary.decodeJumps limits decodeKey keyText) := by
  apply property.bind (property.count _ _)
  intro count
  exact property.entries key keyText count .empty

end Jumps

theorem loop (property : Compositional @holds) (limits : Limits) (layout : ForeachLayout) :
    holds (Auxiliary.decodeLoop limits layout) := by
  apply property.bind (property.count _ _)
  intro count
  apply property.bind property.word32
  intro counter
  apply property.bind property.word32
  intro firstValue
  apply property.bind property.word32
  intro second
  split
  · exact property.refuse rfl
  · exact property.map (property.times (property.slots limits _) count) _

theorem auxiliary (property : Compositional @holds) (limits : Limits) :
    holds (Auxiliary.decode limits) := by
  apply property.bind property.word32
  intro code
  split
  · exact property.refuse rfl
  · exact property.map (property.jumps (property.text limits _) id) _
  · exact property.map (property.jumps property.int64 _) _
  · exact property.map (property.slots limits _) _
  · exact property.map (property.loop limits .legacy) _
  · exact property.map (property.loop limits .current) _

theorem exceptionRange (property : Compositional @holds) : holds ExceptionRange.decode := by
  apply property.bind property.word32
  intro word
  simp only
  split
  · exact property.refuse rfl
  · apply property.bind property.word32
    intro level
    apply property.bind property.word32
    intro offset
    apply property.bind property.word32
    intro length
    apply property.bind property.word32
    intro continueTarget
    apply property.bind property.word32
    intro breakTarget
    exact property.map property.word32 _

/-! ## Literals and blocks -/

/-- A block has the property if the literals of its pool have it. -/
theorem blockWith (property : Compositional @holds) {decodeLiteral : Decoder Literal}
    (below : holds decodeLiteral) : holds (Block.decodeWith limits decodeLiteral) := by
  apply property.bind (property.count _ _)
  intro length
  apply property.bind (property.run length)
  intro code
  apply property.bind (property.table below _ _)
  intro literals
  apply property.bind (property.table (property.auxiliary limits) _ _)
  intro auxiliaries
  apply property.bind (property.table property.exceptionRange _ _)
  intro exceptions
  apply property.bind property.word32
  intro maxStack
  apply property.bind property.word32
  intro reserved
  exact property.map property.word32 _

theorem integer (property : Compositional @holds) (limits : Limits) :
    holds (Literal.decodeInteger limits) := by
  apply property.bind property.byte
  intro sign
  split
  · exact property.refuse rfl
  · exact property.map (property.bytes limits _) _

theorem entry (property : Compositional @holds) {decodeItem : Decoder Literal}
    (below : holds decodeItem) : holds (Literal.decodeEntry decodeItem) := by
  apply property.bind below
  intro key
  exact property.map below _

theorem parameter (property : Compositional @holds) {decodeItem : Decoder Literal}
    (below : holds decodeItem) : holds (Literal.decodeParameter limits decodeItem) := by
  apply property.bind (property.text limits _)
  intro name
  apply property.bind property.boolean
  intro optional
  split
  · exact property.map below _
  · exact property.pure _

theorem inside {α : Type} (property : Compositional @holds) {inner : Option (Decoder Literal)}
    (below : ∀ decodeItem ∈ inner, holds decodeItem) {body : Decoder Literal → Decoder α}
    (opened : ∀ decodeItem, holds decodeItem → holds (body decodeItem)) :
    holds (Literal.decodeInside limits inner body) := by
  cases inner with
  | none => exact property.refuse rfl
  | some decodeItem => exact opened decodeItem (below decodeItem rfl)

/-- A literal has the property if the literals one level below have it. -/
theorem literalWith (property : Compositional @holds) {inner : Option (Decoder Literal)}
    (below : ∀ decodeItem ∈ inner, holds decodeItem) :
    holds (Literal.decodeWith limits inner) := by
  apply property.bind property.word32
  intro code
  split
  · exact property.refuse rfl
  · exact property.map (property.integer limits) _
  · exact property.map property.boolean _
  · exact property.map (property.bytes limits _) _
  · apply property.inside below
    intro decodeItem item
    exact property.map (property.table (property.entry item) _ _) _
  · exact property.map property.word64 _
  · apply property.inside below
    intro decodeItem item
    exact property.map (property.table item _ _) _
  · exact property.map (property.text limits _) _
  · exact property.map property.int64 _
  · exact property.map property.word64 _
  · apply property.inside below
    intro decodeItem item
    apply property.bind (property.text limits _)
    intro scope
    apply property.bind (property.table (property.parameter item) _ _)
    intro parameters
    exact property.map (property.blockWith item) _
  · apply property.inside below
    intro decodeItem item
    apply property.bind (property.text limits _)
    intro scope
    exact property.map (property.blockWith item) _

theorem literalWithin (property : Compositional @holds) (limits : Limits) (levels : Nat) :
    holds (Literal.decodeWithin limits levels) := by
  induction levels with
  | zero =>
    apply property.literalWith
    intro decodeItem below
    cases below
  | succ levels ih =>
    apply property.literalWith
    intro decodeItem below
    cases below
    exact ih

theorem literal (property : Compositional @holds) (limits : Limits) :
    holds (Literal.decode limits) :=
  property.literalWithin limits limits.maxDepth

theorem block (property : Compositional @holds) (limits : Limits) : holds (Block.decode limits) :=
  property.blockWith (property.literal limits)

/-! ## Containers -/

theorem procedure (property : Compositional @holds) (limits : Limits) :
    holds (ProcedureEntry.decode limits) := by
  apply property.bind (property.text limits _)
  intro name
  apply property.bind (property.text limits _)
  intro scope
  apply property.bind (property.text limits _)
  intro arguments
  exact property.map (property.block limits) _

theorem className (property : Compositional @holds) (limits : Limits) :
    holds (ClassEntry.decode limits) := by
  apply property.bind (property.text limits _)
  intro name
  exact property.map (property.table (property.text limits _) _ _) _

theorem method (property : Compositional @holds) (limits : Limits) :
    holds (MethodEntry.decode limits) := by
  apply property.bind (property.text limits _)
  intro className
  apply property.bind property.byte
  intro code
  split
  · exact property.refuse rfl
  · apply property.bind (property.text limits _)
    intro name
    apply property.bind (property.text limits _)
    intro arguments
    apply property.bind (property.count _ _)
    intro length
    apply property.bind (property.run length)
    intro bodyText
    exact property.map (property.block limits) _

theorem header (property : Compositional @holds) : holds Header.decode := by
  apply property.bind property.word32
  intro magic
  simp only
  split
  · exact property.refuse_bind rfl _
  apply property.bind property.word32
  intro format
  split
  · exact property.refuse_bind rfl _
  apply property.bind property.word32
  intro runtime
  apply property.bind property.word64
  intro codeLength
  apply property.bind property.word32
  intro commands
  apply property.bind property.word32
  intro exceptions
  apply property.bind property.word32
  intro literals
  apply property.bind property.word32
  intro auxiliaries
  apply property.bind property.word32
  intro locals
  exact property.map property.word32 _

end Decoder.Compositional

namespace Container

/-- What follows the header of a container. -/
def decodeSections (limits : Limits) (header : Header) : Decoder Container := do
  let top ← Block.decode limits
  let procedures ← Decoder.table "procedures" limits.maxElements (ProcedureEntry.decode limits)
  let classes ← Decoder.table "classes" limits.maxElements (ClassEntry.decode limits)
  let methods ← Decoder.table "methods" limits.maxElements (MethodEntry.decode limits)
  return { header, top, procedures, classes, methods }

theorem decode_eq (limits : Limits) (running : RuntimeVersion) :
    decode limits running = Header.decodeFor running >>= decodeSections limits := rfl

end Container

/-- The sections behind a header have the property, whatever the running runtime. -/
theorem Decoder.Compositional.sections {holds : {α : Type} → Decoder α → Prop}
    (property : Compositional @holds) (limits : Limits) (header : Header) :
    holds (Container.decodeSections limits header) := by
  apply property.bind (property.block limits)
  intro top
  apply property.bind (property.table (property.procedure limits) _ _)
  intro procedures
  apply property.bind (property.table (property.className limits) _ _)
  intro classes
  exact property.map (property.table (property.method limits) _ _) _

end CompiledScript
