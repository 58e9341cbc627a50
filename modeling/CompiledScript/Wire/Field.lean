import CompiledScript.Wire.Decoder
import CompiledScript.Wire.Encoder

/-!
# Sequences of single fields

Tools that look into a stream read or write it field by field, with groups of
fields set one nesting level deeper.  A step is one field or such a group.  Work
goes on after a refused step unless the stream itself gave out, and then nothing
further is tried in any enclosing group.

The depth is part of the state: a group raises it while its steps run and lowers
it again afterwards, whatever became of them.  A group that would exceed the
bound is refused before any of its steps run.
-/

namespace CompiledScript

set_option autoImplicit false

/-! ## Reading -/

/-- A value found in a stream. -/
inductive FieldValue where
  | byte (value : UInt8)
  | word16 (value : UInt16)
  | word32 (value : UInt32)
  | word64 (value : UInt64)
  | int64 (value : Int64)
  | boolean (value : Bool)
  | count (value : Nat)
  | bytes (value : Bytes)
  | text (value : String)
deriving DecidableEq, Inhabited

/-- A field to be read. -/
inductive ReadField where
  | byte
  | word16
  | word32
  | word64
  | int64
  | boolean
  | count (what : String) (max : Nat)
  | run (length : Nat)
  | bytes (what : String)
  | text (what : String)
deriving DecidableEq, Inhabited, Repr

def ReadField.decode (limits : Limits) : ReadField → Decoder FieldValue
  | byte => return .byte (← Decoder.byte)
  | word16 => return .word16 (← Decoder.word16)
  | word32 => return .word32 (← Decoder.word32)
  | word64 => return .word64 (← Decoder.word64)
  | int64 => return .int64 (← Decoder.int64)
  | boolean => return .boolean (← Decoder.boolean)
  | count what max => return .count (← Decoder.count what max)
  | run length => return .bytes (← Decoder.run length)
  | bytes what => return .bytes (← Decoder.bytes limits what)
  | text what => return .text (← Decoder.text limits what)

/-- A step of reading. -/
inductive ReadStep where
  | field (field : ReadField)
  | nested (steps : List ReadStep)
deriving Inhabited

/-- What became of a step of reading. -/
inductive ReadAnswer where
  | value (value : FieldValue)
  | refused (error : FormatError)
  | group (answers : List ReadAnswer)
deriving Inhabited

/-- A reader between two steps. -/
structure Reader where
  limits : Limits
  /-- How many groups enclose the next step. -/
  depth : Nat
  rest : Bytes

mutual

/-- Runs one step; the truth value says whether the stream gave out. -/
def ReadStep.run : ReadStep → Reader → ReadAnswer × Bool × Reader
  | .field wanted, reader =>
    match wanted.decode reader.limits reader.rest with
    | .ok value rest => (.value value, false, { reader with rest })
    | .error error rest => (.refused error, error.isTransfer, { reader with rest })
  | .nested steps, reader =>
    if reader.depth < reader.limits.maxDepth then
      let (answers, stopped, after) :=
        ReadStep.runAll steps { reader with depth := reader.depth + 1 }
      (.group answers, stopped, { after with depth := after.depth - 1 })
    else (.refused (.nestingTooDeep reader.limits.maxDepth), false, reader)

/-- Runs steps in order until the stream gives out. -/
def ReadStep.runAll : List ReadStep → Reader → List ReadAnswer × Bool × Reader
  | [], reader => ([], false, reader)
  | step :: steps, reader =>
    let (answer, stopped, after) := step.run reader
    if stopped then ([answer], true, after)
    else
      let (answers, stopped, last) := ReadStep.runAll steps after
      (answer :: answers, stopped, last)

end

/-! ## Writing -/

/-- A field to be written. -/
inductive WriteField where
  | byte (value : UInt8)
  | word16 (value : UInt16)
  | word32 (value : UInt32)
  | word64 (value : UInt64)
  | int64 (value : Int64)
  | boolean (value : Bool)
  | count (what : String) (length max : Nat)
  | raw (contents : Bytes)
  | bytes (what : String) (value : Bytes)
  | text (what : String) (value : String)
deriving DecidableEq, Inhabited

def WriteField.encode (limits : Limits) : WriteField → Encoder
  | byte value => Encoder.byte value
  | word16 value => Encoder.word16 value
  | word32 value => Encoder.word32 value
  | word64 value => Encoder.word64 value
  | int64 value => Encoder.int64 value
  | boolean value => Encoder.boolean value
  | count what length max => Encoder.count what length max
  | raw contents => Encoder.raw contents
  | bytes what value => Encoder.bytes limits what value
  | text what value => Encoder.text limits what value

/-- A step of writing.  The steps of a `scratch` group go to a sink of their own,
without a bound, and nothing of it reaches the enclosing one. -/
inductive WriteStep where
  | field (field : WriteField)
  | flush
  | nested (steps : List WriteStep)
  | scratch (steps : List WriteStep)
deriving Inhabited

/-- What became of a step of writing. -/
inductive WriteAnswer where
  | done
  | refused (error : FormatError)
  | group (answers : List WriteAnswer)
  | scratch (answers : List WriteAnswer) (bytes : Bytes)
deriving Inhabited

/-- A writer between two steps. -/
structure Writer where
  limits : Limits
  /-- How many groups enclose the next step. -/
  depth : Nat
  /-- The room the sink has left. -/
  room : Room
  /-- What the sink has taken. -/
  written : Bytes

/-- Writes one field into the sink of a writer. -/
def Writer.put (writer : Writer) (encoder : Encoder) : Option FormatError × Writer :=
  let output := encoder.into writer.room
  (output.failure,
    { writer with
      room := writer.room.after output.bytes.length
      written := writer.written ++ output.bytes })

mutual

/-- Runs one step; the truth value says whether the stream gave out. -/
def WriteStep.run : WriteStep → Writer → WriteAnswer × Bool × Writer
  | .field given, writer =>
    match writer.put (given.encode writer.limits) with
    | (none, after) => (.done, false, after)
    | (some error, after) => (.refused error, error.isTransfer, after)
  | .flush, writer => (.done, false, writer)
  | .nested steps, writer =>
    if writer.depth < writer.limits.maxDepth then
      let (answers, stopped, after) :=
        WriteStep.runAll steps { writer with depth := writer.depth + 1 }
      (.group answers, stopped, { after with depth := after.depth - 1 })
    else (.refused (.nestingTooDeep writer.limits.maxDepth), false, writer)
  | .scratch steps, writer =>
    let (answers, stopped, after) :=
      WriteStep.runAll steps { writer with room := none, written := [] }
    (.scratch answers after.written, stopped, writer)

/-- Runs steps in order until the stream gives out. -/
def WriteStep.runAll : List WriteStep → Writer → List WriteAnswer × Bool × Writer
  | [], writer => ([], false, writer)
  | step :: steps, writer =>
    let (answer, stopped, after) := step.run writer
    if stopped then ([answer], true, after)
    else
      let (answers, stopped, last) := WriteStep.runAll steps after
      (answer :: answers, stopped, last)

end

end CompiledScript
