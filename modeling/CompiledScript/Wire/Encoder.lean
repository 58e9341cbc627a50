import CompiledScript.Bytes
import CompiledScript.FormatError
import CompiledScript.Limits

/-!
# Writing into a sink

A sink takes the bytes it is given in order and may stop accepting them at any
point.  An encoder is what is written: for every room that a sink may have it
says which bytes the sink takes and whether the writing succeeded.  A run of
bytes that does not fit is taken up to the room there is, and the writing fails.

Encoders are put one after the other with `++`.  Once the first part has failed
nothing of the second is written, so the bytes before a failure are exactly what
a reader of the sink finds.
-/

namespace CompiledScript

set_option autoImplicit false

/-- How many more bytes a sink takes; `none` stands for a sink without a bound. -/
abbrev Room := Option Nat

/-- The room left after `used` bytes. -/
def Room.after (room : Room) (used : Nat) : Room :=
  room.map (· - used)

/-- What has reached a sink, and why the writing stopped if it did not succeed. -/
structure Written where
  bytes : Bytes
  failure : Option FormatError
deriving DecidableEq, Inhabited, Repr

/-- The bytes of a writing that succeeded. -/
def Written.result (written : Written) : Except FormatError Bytes :=
  match written.failure with
  | none => .ok written.bytes
  | some error => .error error

/-- Something that can be written: what it leaves in a sink of each room. -/
@[ext] structure Encoder where
  /-- What is left in a sink that has the given room. -/
  into : Room → Written

namespace Encoder

/-! ## Putting encoders together -/

def nothing : Encoder := ⟨fun _ => ⟨[], none⟩⟩

/-- Fails without writing anything. -/
def fail (error : FormatError) : Encoder := ⟨fun _ => ⟨[], some error⟩⟩

/-- Writes the first and, if that succeeds, the second into the room it left. -/
def andThen (first second : Encoder) : Encoder :=
  ⟨fun room =>
    let start := first.into room
    match start.failure with
    | some _ => start
    | none =>
      let rest := second.into (room.after start.bytes.length)
      ⟨start.bytes ++ rest.bytes, rest.failure⟩⟩

instance : Append Encoder := ⟨andThen⟩

/-- Writes every item in order. -/
def each {α : Type} (items : List α) (encode : α → Encoder) : Encoder :=
  match items with
  | [] => nothing
  | item :: items => encode item ++ each items encode

/-- The whole output, as a sink without a bound takes it. -/
def unbounded (encoder : Encoder) : Written := encoder.into none

/-- The bytes of a complete output. -/
def bytes? (encoder : Encoder) : Except FormatError Bytes := encoder.unbounded.result

/-! ## Fields of fixed width -/

/-- A run of bytes as it is. -/
def raw (bytes : Bytes) : Encoder :=
  ⟨fun room =>
    match room with
    | none => ⟨bytes, none⟩
    | some left =>
      if bytes.length ≤ left then ⟨bytes, none⟩ else ⟨bytes.take left, some .sinkFull⟩⟩

def byte (value : UInt8) : Encoder := raw [value]

def word16 (value : UInt16) : Encoder := raw (Bytes.ofNat 2 value.toNat)

def word32 (value : UInt32) : Encoder := raw (Bytes.ofNat 4 value.toNat)

def word64 (value : UInt64) : Encoder := raw (Bytes.ofNat 8 value.toNat)

/-- A signed 64-bit integer in two's complement. -/
def int64 (value : Int64) : Encoder := word64 value.toUInt64

/-- A truth value, written as zero or one. -/
def boolean (value : Bool) : Encoder := byte (if value then 1 else 0)

/-! ## Lengths and what they announce -/

/-- A length of at most `max`, which must also fit in a 32-bit word. -/
def count (what : String) (length max : Nat) : Encoder :=
  if length ≤ max ∧ length < 4294967296 then word32 (UInt32.ofNat length)
  else fail (.limitExceeded what length max)

/-- A byte string behind its length. -/
def bytes (limits : Limits) (what : String) (value : Bytes) : Encoder :=
  count what value.length limits.maxStringLength ++ raw value

/-- A text behind the length of its UTF-8 form. -/
def text (limits : Limits) (what : String) (value : String) : Encoder :=
  bytes limits what (Bytes.ofText value)

/-- A counted table: the number of entries and then each entry. -/
def table {α : Type} (what : String) (max : Nat) (items : List α) (encode : α → Encoder) :
    Encoder :=
  count what items.length max ++ each items encode

end Encoder

end CompiledScript
