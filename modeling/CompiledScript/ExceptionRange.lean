import CompiledScript.Wire.Decoder
import CompiledScript.Wire.Encoder

/-!
# Exception ranges

A range covers a stretch of a block's code and says where control goes when an
exception arises in it: a loop range sends `break` and `continue` to their
targets, a catch range sends every error to its target.

A range is seven words on the wire.  Of the first only the low byte decides the
kind, and an unknown kind is refused before the other words are read.
-/

namespace CompiledScript

set_option autoImplicit false

/-- What a range catches. -/
inductive ExceptionKind where
  | loop
  | catching
deriving DecidableEq, Inhabited, Repr

namespace ExceptionKind

def code : ExceptionKind → UInt8
  | loop => 0
  | catching => 1

def ofCode? : UInt8 → Option ExceptionKind
  | 0 => some loop
  | 1 => some catching
  | _ => none

theorem ofCode?_code (kind : ExceptionKind) : ofCode? kind.code = some kind := by
  cases kind <;> rfl

end ExceptionKind

/-- A stretch of code and where the exceptions that arise in it are handled. -/
structure ExceptionRange where
  kind : ExceptionKind
  /-- The nesting depth among the ranges of the block. -/
  level : UInt32
  offset : UInt32
  length : UInt32
  continueTarget : UInt32
  breakTarget : UInt32
  catchTarget : UInt32
deriving DecidableEq, Inhabited, Repr

namespace ExceptionRange

/-- The word that stands for an unused target. -/
def noTarget : UInt32 := 4294967295

/-- Whether a range lies within code of the given length. -/
def fits (range : ExceptionRange) (codeLength : Nat) : Bool :=
  range.offset.toNat + range.length.toNat ≤ codeLength

theorem fits_iff (range : ExceptionRange) (codeLength : Nat) :
    range.fits codeLength = true ↔
      range.offset.toNat + range.length.toNat ≤ codeLength := by
  simp [fits]

def encode (range : ExceptionRange) : Encoder :=
  Encoder.word32 range.kind.code.toUInt32 ++
  Encoder.word32 range.level ++
  Encoder.word32 range.offset ++
  Encoder.word32 range.length ++
  Encoder.word32 range.continueTarget ++
  Encoder.word32 range.breakTarget ++
  Encoder.word32 range.catchTarget

def decode : Decoder ExceptionRange := do
  let code := (← Decoder.word32).toUInt8
  match ExceptionKind.ofCode? code with
  | none => throw (.unknownExceptionKind code)
  | some kind =>
    let level ← Decoder.word32
    let offset ← Decoder.word32
    let length ← Decoder.word32
    let continueTarget ← Decoder.word32
    let breakTarget ← Decoder.word32
    let catchTarget ← Decoder.word32
    return { kind, level, offset, length, continueTarget, breakTarget, catchTarget }

end ExceptionRange

end CompiledScript
