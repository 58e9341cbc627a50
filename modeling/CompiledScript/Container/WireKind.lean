import CompiledScript.Container.Codec

/-!
# The kinds of values on the wire

Everything that is written is a value of one of these kinds.  The kinds are
listed once, with the type of their values and the two directions of their
encoding, so that what holds of every kind can be said in one sentence.

A run of bytes is judged by what it decodes to: it is refused, it is what its
value is written as, or it is another form of it.
-/

namespace CompiledScript

set_option autoImplicit false

inductive WireKind where
  | literal
  | auxiliary
  | exceptionRange
  | block
  | header
  | procedure
  | className
  | classNames
  | method
  | container
deriving DecidableEq, Inhabited, Repr

namespace WireKind

abbrev Value : WireKind → Type
  | literal => Literal
  | auxiliary => Auxiliary
  | exceptionRange => ExceptionRange
  | block => Block
  | header => Header
  | procedure => ProcedureEntry
  | className => ClassEntry
  | classNames => List ClassEntry
  | method => MethodEntry
  | container => Container

/-- How the values of a kind are written. -/
def encode (limits : Limits) : (kind : WireKind) → kind.Value → Encoder
  | literal => Literal.encode limits
  | auxiliary => Auxiliary.encode limits
  | exceptionRange => ExceptionRange.encode
  | block => Block.encode limits
  | header => Header.encode
  | procedure => ProcedureEntry.encode limits
  | className => ClassEntry.encode limits
  | classNames => fun entries =>
    Encoder.table "classes" limits.maxElements entries (ClassEntry.encode limits)
  | method => MethodEntry.encode limits
  | container => Container.encode limits

/-- How the values of a kind are read by a runtime of the given version.  A header is read
for no particular runtime unless one is given, and a container for version 1.0. -/
def decode (limits : Limits) (running : Option RuntimeVersion) :
    (kind : WireKind) → Decoder kind.Value
  | literal => Literal.decode limits
  | auxiliary => Auxiliary.decode limits
  | exceptionRange => ExceptionRange.decode
  | block => Block.decode limits
  | header =>
    match running with
    | some version => Header.decodeFor version
    | none => Header.decode
  | procedure => ProcedureEntry.decode limits
  | className => ClassEntry.decode limits
  | classNames => Decoder.table "classes" limits.maxElements (ClassEntry.decode limits)
  | method => MethodEntry.decode limits
  | container => Container.decode limits (running.getD ⟨1, 0⟩)

/-- Whether two values of a kind cannot be told apart. -/
def equal : (kind : WireKind) → kind.Value → kind.Value → Bool
  | literal => fun first second => first == second
  | auxiliary => fun first second => first == second
  | exceptionRange => fun first second => first == second
  | block => fun first second => first == second
  | header => fun first second => first == second
  | procedure => fun first second => first == second
  | className => fun first second => first == second
  | classNames => fun first second => first == second
  | method => fun first second => first == second
  | container => fun first second => first == second

/-- What a run of bytes is as a value of a kind. -/
inductive Verdict where
  | refused (error : FormatError)
  /-- It starts with what a value is written as; `rest` bytes follow. -/
  | canonical (rest : Nat)
  /-- It starts with another form of a value, which is written with `length` bytes; `rest`
  bytes follow.  The two forms differ at `difference` for the first time. -/
  | normalised (rest length difference : Nat)
deriving DecidableEq, Inhabited, Repr

/-- The number of bytes in which two runs agree from the start. -/
def agreement (first second : Bytes) : Nat :=
  ((first.zip second).takeWhile fun pair => pair.1 == pair.2).length

/-- What a run of bytes is as a value of a kind. -/
def verdict (kind : WireKind) (limits : Limits) (running : Option RuntimeVersion)
    (input : Bytes) : Verdict :=
  match kind.decode limits running input with
  | .error error _ => .refused error
  | .ok value rest =>
    let taken := input.take (input.length - rest.length)
    let written := (kind.encode {} value).unbounded.bytes
    if written = taken then .canonical rest.length
    else .normalised rest.length written.length (agreement written taken)

end WireKind

end CompiledScript
