import CompiledScript.Literal.Codec

/-!
# Container headers

A header opens a container.  It names the format and the producing runtime, and
repeats six counters of the top block, which are compared with the block itself
after decoding.

The magic number and the format version are refused one after the other as soon
as they are read.  Whether the running runtime may load the container is a
separate question, asked once the whole header has been read.
-/

namespace CompiledScript

set_option autoImplicit false

/-- The first word of every container, which reads `TCBX` byte by byte. -/
def containerMagic : UInt32 := 0x58424354

def formatVersion : UInt32 := 1

/-- The fields in front of a container's sections. -/
structure Header where
  magic : UInt32
  format : UInt32
  runtime : RuntimeVersion
  codeLength : UInt64
  /-- A reserved counter, written as zero. -/
  commands : UInt32
  exceptions : UInt32
  literals : UInt32
  auxiliaries : UInt32
  locals : UInt32
  maxStack : UInt32
deriving DecidableEq, Inhabited, Repr

/-- The counters of the top block that a header repeats. -/
inductive Counter where
  | codeLength
  | literals
  | auxiliaries
  | exceptions
  | locals
  | maxStack
deriving DecidableEq, Inhabited, Repr

namespace Counter

def all : List Counter := [codeLength, literals, auxiliaries, exceptions, locals, maxStack]

def name : Counter → String
  | codeLength => "code length"
  | literals => "literal count"
  | auxiliaries => "aux count"
  | exceptions => "exception count"
  | locals => "local count"
  | maxStack => "max stack depth"

def ofHeader (header : Header) : Counter → Nat
  | codeLength => header.codeLength.toNat
  | literals => header.literals.toNat
  | auxiliaries => header.auxiliaries.toNat
  | exceptions => header.exceptions.toNat
  | locals => header.locals.toNat
  | maxStack => header.maxStack.toNat

def ofBlock (block : Block) : Counter → Nat
  | codeLength => block.code.length
  | literals => block.literals.length
  | auxiliaries => block.auxiliaries.length
  | exceptions => block.exceptions.length
  | locals => block.localCount.toNat
  | maxStack => block.maxStack.toNat

end Counter

/-- A counter on which a header and the top block disagree. -/
structure CounterMismatch where
  counter : Counter
  header : Nat
  block : Nat
deriving DecidableEq, Inhabited, Repr

def CounterMismatch.text (mismatch : CounterMismatch) : String :=
  s!"{mismatch.counter.name}: header says {mismatch.header}, top block has {mismatch.block}"

namespace Header

/-- A length as a word, refused if it does not fit. -/
def wordCount (what : String) (length : Nat) : Except FormatError UInt32 :=
  if length ≤ 4294967295 then .ok (UInt32.ofNat length)
  else .error (.limitExceeded what length 4294967295)

/-- The header of a container with the given top block. -/
def forBlock (top : Block) (runtime : RuntimeVersion) : Except FormatError Header := do
  let exceptions ← wordCount "exception ranges" top.exceptions.length
  let literals ← wordCount "literals" top.literals.length
  let auxiliaries ← wordCount "aux descriptors" top.auxiliaries.length
  let locals ← top.checkedLocalCount
  return {
    magic := containerMagic
    format := formatVersion
    runtime
    codeLength := UInt64.ofNat top.code.length
    commands := 0
    exceptions
    literals
    auxiliaries
    locals
    maxStack := top.maxStack }

def encode (header : Header) : Encoder :=
  Encoder.word32 header.magic ++
  Encoder.word32 header.format ++
  Encoder.word32 header.runtime.pack ++
  Encoder.word64 header.codeLength ++
  Encoder.word32 header.commands ++
  Encoder.word32 header.exceptions ++
  Encoder.word32 header.literals ++
  Encoder.word32 header.auxiliaries ++
  Encoder.word32 header.locals ++
  Encoder.word32 header.maxStack

/-- A header, refused if its magic number or its format version is a foreign one. -/
def decode : Decoder Header := do
  let magic ← Decoder.word32
  if magic ≠ containerMagic then throw (.invalidMagic magic)
  let format ← Decoder.word32
  if format ≠ formatVersion then throw (.unsupportedFormat format)
  let runtime ← Decoder.word32
  let codeLength ← Decoder.word64
  let commands ← Decoder.word32
  let exceptions ← Decoder.word32
  let literals ← Decoder.word32
  let auxiliaries ← Decoder.word32
  let locals ← Decoder.word32
  let maxStack ← Decoder.word32
  return {
    magic, format, runtime := .unpack runtime, codeLength, commands, exceptions, literals,
    auxiliaries, locals, maxStack }

/-- Why a runtime of version `running` must not load the container, if it must not. -/
def checkRuntime (header : Header) (running : RuntimeVersion) : Except FormatError Unit :=
  if running.canLoad header.runtime then .ok ()
  else .error (.incompatibleRuntime header.runtime running)

/-- The counters on which the header disagrees with a block. -/
def crossCheck (header : Header) (top : Block) : List CounterMismatch :=
  Counter.all.filterMap fun counter =>
    if counter.ofHeader header = counter.ofBlock top then none
    else some ⟨counter, counter.ofHeader header, counter.ofBlock top⟩

end Header

end CompiledScript
