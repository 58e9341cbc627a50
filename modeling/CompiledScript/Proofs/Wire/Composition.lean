import CompiledScript.Wire.Decoder

/-!
# What decoders have from their fields

A decoder is put together from two kinds of fields, numbers of fixed width and runs of
announced length, by reading one behind the other and by refusing what does not follow
the format.  A property that the fields have, that a refusal has, and that is kept when
one decoder follows another is compositional.

Every decoder of this module has each compositional property.  What is shown of all
decoders of the format in this way needs to be checked at the two fields only.
-/

set_option autoImplicit false

namespace CompiledScript

namespace Decoder

/-- A property that decoders have because their fields have it. -/
structure Compositional (holds : {α : Type} → Decoder α → Prop) : Prop where
  pure : ∀ {α : Type} (value : α), holds (Pure.pure value)
  /-- What does not follow the format may be refused at any point. -/
  refuse : ∀ {α : Type} {error : FormatError}, error.classOf = .malformed →
    holds (throw error : Decoder α)
  digits : ∀ width : Nat, holds (digits width)
  run : ∀ length : Nat, holds (run length)
  bind : ∀ {α β : Type} {first : Decoder α} {next : α → Decoder β}, holds first →
    (∀ value, holds (next value)) → holds (first >>= next)

namespace Compositional

variable {holds : {α : Type} → Decoder α → Prop} {α β : Type}

/-- What is done with a value in the end makes no difference. -/
theorem map (property : Compositional @holds) {decoder : Decoder α} (start : holds decoder)
    (next : α → β) : holds (do return next (← decoder)) := by
  apply property.bind start
  intro value
  exact property.pure (next value)

/-- Nothing behind a refusal is reached. -/
theorem refuse_bind (property : Compositional @holds) {error : FormatError}
    (malformed : error.classOf = .malformed) (next : α → Decoder β) :
    holds ((throw error : Decoder α) >>= next) := by
  have same : ((throw error : Decoder α) >>= next) = throw error := rfl
  rw [same]
  exact property.refuse malformed

/-! ## Fields of fixed width -/

theorem byte (property : Compositional @holds) : holds byte :=
  property.map (property.digits 1) _

theorem word32 (property : Compositional @holds) : holds word32 :=
  property.map (property.digits 4) _

theorem word64 (property : Compositional @holds) : holds word64 :=
  property.map (property.digits 8) _

theorem int64 (property : Compositional @holds) : holds int64 :=
  property.map property.word64 _

theorem boolean (property : Compositional @holds) : holds boolean := by
  apply property.bind property.byte
  intro found
  split
  · exact property.pure false
  · exact property.pure true
  · exact property.refuse rfl

/-! ## Lengths and what they announce -/

theorem count (property : Compositional @holds) (what : String) (max : Nat) :
    holds (count what max) := by
  apply property.bind property.word32
  intro length
  simp only
  split
  · exact property.refuse rfl
  · exact property.pure length.toNat

theorem bytes (property : Compositional @holds) (limits : Limits) (what : String) :
    holds (bytes limits what) :=
  property.bind (property.count what _) property.run

theorem text (property : Compositional @holds) (limits : Limits) (what : String) :
    holds (text limits what) := by
  apply property.bind (property.bytes limits what)
  intro encoded
  split
  · exact property.pure _
  · exact property.refuse rfl

theorem times (property : Compositional @holds) {item : Decoder α} (each : holds item)
    (count : Nat) : holds (times count item) := by
  induction count with
  | zero => exact property.pure []
  | succ count ih =>
    rw [times_succ]
    apply property.bind each
    intro value
    exact property.map ih _

theorem table (property : Compositional @holds) {item : Decoder α} (each : holds item)
    (what : String) (max : Nat) : holds (table what max item) := by
  apply property.bind (property.count what max)
  intro count
  exact property.times each count

end Compositional

end Decoder

end CompiledScript
