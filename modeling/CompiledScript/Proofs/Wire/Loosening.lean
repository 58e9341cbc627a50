import CompiledScript.Proofs.Wire.Recovery

/-!
# Reading under looser bounds

Bounds are only ever a reason to stop.  Two decoders that differ in their bounds
thus do the same on an input unless the tighter one stops at a bound, and this is
how they are compared here.  The comparison goes through every way of putting
decoders together, so it has to be made only where a bound is consulted.

Any two sets of bounds lie below a common one.  What is accepted under both is
therefore accepted with the same result.
-/

set_option autoImplicit false

namespace CompiledScript

/-- The causes that a looser bound may take away. -/
def FormatError.IsBound : FormatError → Prop
  | .limitExceeded _ _ _ | .nestingTooDeep _ => True
  | _ => False

/-! ## Comparing bounds -/

/-- Bounds of which none is tighter than the corresponding one. -/
structure Limits.Within (tight loose : Limits) : Prop where
  maxStringLength : tight.maxStringLength ≤ loose.maxStringLength
  maxCodeLength : tight.maxCodeLength ≤ loose.maxCodeLength
  maxLiterals : tight.maxLiterals ≤ loose.maxLiterals
  maxAuxiliaries : tight.maxAuxiliaries ≤ loose.maxAuxiliaries
  maxExceptions : tight.maxExceptions ≤ loose.maxExceptions
  maxElements : tight.maxElements ≤ loose.maxElements
  maxDepth : tight.maxDepth ≤ loose.maxDepth

theorem Limits.Within.refl (limits : Limits) : limits.Within limits :=
  ⟨Nat.le_refl _, Nat.le_refl _, Nat.le_refl _, Nat.le_refl _, Nat.le_refl _, Nat.le_refl _,
    Nat.le_refl _⟩

/-- Any two sets of bounds lie within a common one. -/
theorem Limits.exists_common (first second : Limits) :
    ∃ loose, first.Within loose ∧ second.Within loose := by
  refine ⟨{
    maxStringLength := max first.maxStringLength second.maxStringLength
    maxCodeLength := max first.maxCodeLength second.maxCodeLength
    maxLiterals := max first.maxLiterals second.maxLiterals
    maxAuxiliaries := max first.maxAuxiliaries second.maxAuxiliaries
    maxExceptions := max first.maxExceptions second.maxExceptions
    maxElements := max first.maxElements second.maxElements
    maxDepth := max first.maxDepth second.maxDepth }, ?_, ?_⟩
  · constructor <;> exact Nat.le_max_left _ _
  · constructor <;> exact Nat.le_max_right _ _

namespace Decoder

variable {α β : Type}

/-- The second decoder does what the first does, unless the first stops at a bound. -/
def Loosens (tight loose : Decoder α) : Prop :=
  ∀ input, tight input = loose input ∨
    ∃ error rest, tight input = .error error rest ∧ error.IsBound

namespace Loosens

theorem refl (decoder : Decoder α) : decoder.Loosens decoder := fun _ => .inl rfl

/-- What is accepted stays accepted. -/
theorem accepts {tight loose : Decoder α} (loosens : tight.Loosens loose) {input rest : Bytes}
    {value : α} (read : tight input = .ok value rest) : loose input = .ok value rest := by
  rcases loosens input with same | ⟨error, left, failed, -⟩
  · rw [← same, read]
  · rw [read] at failed
    cases failed

theorem bind {tight loose : Decoder α} {next further : α → Decoder β}
    (start : tight.Loosens loose) (finish : ∀ value, (next value).Loosens (further value)) :
    (tight >>= next).Loosens (loose >>= further) := by
  intro input
  show EStateM.bind tight next input = EStateM.bind loose further input ∨
    ∃ error rest, EStateM.bind tight next input = .error error rest ∧ error.IsBound
  simp only [EStateM.bind]
  rcases start input with same | ⟨error, left, failed, bound⟩
  · rw [← same]
    cases tight input with
    | ok value rest => exact finish value rest
    | error error rest => exact .inl rfl
  · rw [failed]
    exact .inr ⟨error, left, rfl, bound⟩

/-- Only the bounds of what is read first differ. -/
theorem bind_left {tight loose : Decoder α} (start : tight.Loosens loose)
    (next : α → Decoder β) : (tight >>= next).Loosens (loose >>= next) :=
  start.bind fun value => refl (next value)

/-- Only the bounds of what is read afterwards differ. -/
theorem bind_right (first : Decoder α) {next further : α → Decoder β}
    (finish : ∀ value, (next value).Loosens (further value)) :
    (first >>= next).Loosens (first >>= further) :=
  (refl first).bind finish

theorem stop {error : FormatError} (bound : error.IsBound) (loose : Decoder α) :
    Loosens (throw error) loose := fun input => .inr ⟨error, input, rfl, bound⟩

end Loosens

variable {tight loose : Limits}

/-! ## Where bounds are consulted -/

theorem loosens_count {what : String} {less more : Nat} (within : less ≤ more) :
    (count what less).Loosens (count what more) := by
  refine .bind_right word32 fun length => ?_
  simp only
  split
  · exact .stop (show FormatError.IsBound (.limitExceeded ..) from trivial) _
  · rw [if_neg (by omega)]
    exact .refl _

theorem loosens_bytes (within : tight.Within loose) (what : String) :
    (bytes tight what).Loosens (bytes loose what) :=
  (loosens_count within.maxStringLength).bind_left _

theorem loosens_text (within : tight.Within loose) (what : String) :
    (text tight what).Loosens (text loose what) :=
  (loosens_bytes within what).bind_left _

theorem loosens_times {item other : Decoder α} (loosens : item.Loosens other) (count : Nat) :
    (times count item).Loosens (times count other) := by
  induction count with
  | zero => exact .refl _
  | succ count ih =>
    rw [times_succ, times_succ]
    exact loosens.bind fun value => ih.bind_left _

theorem loosens_table {what : String} {less more : Nat} (within : less ≤ more)
    {item other : Decoder α} (loosens : item.Loosens other) :
    (table what less item).Loosens (table what more other) :=
  (loosens_count within).bind fun length => loosens_times loosens length

end Decoder

end CompiledScript
