import CompiledScript.Bytes
import CompiledScript.FormatError
import CompiledScript.Limits

/-!
# Reading from a run of bytes

A decoder takes bytes off the front of its input and gives a value, or stops
with a cause.  Either way the bytes not yet taken remain, so how far a decoder
got is part of its outcome.  An input that ends too early leaves nothing.

Every length that is declared in the input is compared with its bound before
any of the bytes or entries it announces are read.
-/

namespace CompiledScript

set_option autoImplicit false

/-- A reader of values of type `α` from the front of a run of bytes. -/
abbrev Decoder (α : Type) := EStateM FormatError Bytes α

namespace Decoder

/-! ## Fields of fixed width -/

/-- A number written in `width` bytes. -/
def digits (width : Nat) : Decoder Nat := fun input =>
  match Bytes.split? width input with
  | some (front, rest) => .ok (Bytes.toNat front) rest
  | none => .error .fieldCutShort []

def byte : Decoder UInt8 :=
  return UInt8.ofNat (← digits 1)

def word16 : Decoder UInt16 :=
  return UInt16.ofNat (← digits 2)

def word32 : Decoder UInt32 :=
  return UInt32.ofNat (← digits 4)

def word64 : Decoder UInt64 :=
  return UInt64.ofNat (← digits 8)

/-- A signed 64-bit integer in two's complement. -/
def int64 : Decoder Int64 :=
  return (← word64).toInt64

/-- A truth value, written as zero or one. -/
def boolean : Decoder Bool := do
  match ← byte with
  | 0 => return false
  | 1 => return true
  | other => throw (.invalidBoolean other)

/-! ## Lengths and what they announce -/

/-- A length of at most `max`. -/
def count (what : String) (max : Nat) : Decoder Nat := do
  let length := (← word32).toNat
  if max < length then throw (.limitExceeded what length max) else return length

/-- The next `length` bytes as they are. -/
def run (length : Nat) : Decoder Bytes := fun input =>
  match Bytes.split? length input with
  | some (front, rest) => .ok front rest
  | none => .error .runCutShort []

/-- A byte string behind its length. -/
def bytes (limits : Limits) (what : String) : Decoder Bytes := do
  run (← count what limits.maxStringLength)

/-- A text behind the length of its UTF-8 form. -/
def text (limits : Limits) (what : String) : Decoder String := do
  let encoded ← bytes limits what
  match Bytes.text? encoded with
  | some value => return value
  | none => throw (.invalidText what)

/-- The items read so far, last one first, followed by `count` further ones. -/
def repeatAfter {α : Type} (item : Decoder α) : (count : Nat) → (read : List α) → Decoder (List α)
  | 0, read => return read.reverse
  | count + 1, read => do
    let value ← item
    repeatAfter item count (value :: read)

/-- The same decoder run `count` times. -/
def times {α : Type} (count : Nat) (item : Decoder α) : Decoder (List α) :=
  repeatAfter item count []

/-- A counted table: the number of entries and then each entry. -/
def table {α : Type} (what : String) (max : Nat) (item : Decoder α) : Decoder (List α) := do
  times (← count what max) item

/-! ## Running a decoder -/

/-- What a decoder gives on an input, without the bytes it leaves. -/
def outcome {α : Type} (decoder : Decoder α) (input : Bytes) : Except FormatError α :=
  match decoder input with
  | .ok value _ => .ok value
  | .error error _ => .error error

/-! ## Repetition, one step at a time -/

theorem repeatAfter_eq {α : Type} (item : Decoder α) (count : Nat) (read : List α) :
    repeatAfter item count read =
      (do let values ← repeatAfter item count []; return read.reverse ++ values) := by
  induction count generalizing read with
  | zero => simp [repeatAfter]
  | succ count ih =>
    simp only [repeatAfter, bind_assoc]
    congr 1
    funext value
    rw [ih (value :: read), ih [value]]
    simp

@[simp] theorem times_zero {α : Type} (item : Decoder α) : times 0 item = pure [] := rfl

theorem times_succ {α : Type} (count : Nat) (item : Decoder α) :
    times (count + 1) item =
      (do let value ← item; let values ← times count item; return value :: values) := by
  simp only [times, repeatAfter]
  congr 1
  funext value
  rw [repeatAfter_eq]
  simp

end Decoder

end CompiledScript
