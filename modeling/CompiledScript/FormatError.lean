import CompiledScript.Text.Hex
import CompiledScript.Version

/-!
# Why a container cannot be written or read

A failure is recorded as its cause.  The causes fall into three classes: the
stream itself gave out, the container comes from an incompatible runtime, or
the bytes do not follow the format.  The wording of each cause is fixed in one
place, `FormatError.message`.
-/

set_option autoImplicit false

namespace CompiledScript

/-- A cause for refusing to write a value or to read a run of bytes. -/
inductive FormatError where
  /-- The input ended inside a field of fixed width. -/
  | fieldCutShort
  /-- The input ended inside a run of bytes whose length was known. -/
  | runCutShort
  /-- The sink accepts no more bytes. -/
  | sinkFull
  | invalidMagic (found : UInt32)
  | unsupportedFormat (found : UInt32)
  /-- The running runtime does not load what the producing runtime wrote. -/
  | incompatibleRuntime (found running : RuntimeVersion)
  | unknownLiteralTag (tag : UInt32)
  | unknownAuxiliaryTag (tag : UInt32)
  | unknownExceptionKind (code : UInt8)
  | unknownMethodKind (code : UInt8)
  | invalidBoolean (found : UInt8)
  /-- The sign of an integer is none of the three sign codes. -/
  | invalidSign (found : UInt8)
  | limitExceeded (what : String) (length max : Nat)
  /-- The two list counts of a loop record differ. -/
  | listCountMismatch (first second : UInt32)
  | duplicateJumpKey (key : String)
  | invalidText (what : String)
  | nestingTooDeep (max : Nat)
deriving DecidableEq, Inhabited, Repr

namespace FormatError

/-- The three ways a container can be refused. -/
inductive Class where
  /-- The stream gave out. -/
  | transfer
  /-- The producing runtime is not compatible. -/
  | compatibility
  /-- The bytes or the value do not follow the format. -/
  | malformed
deriving DecidableEq, Inhabited, Repr

def classOf : FormatError → Class
  | fieldCutShort | runCutShort | sinkFull => .transfer
  | incompatibleRuntime _ _ => .compatibility
  | _ => .malformed

/-- Whether the stream gave out, as opposed to its content being refused. -/
def isTransfer (error : FormatError) : Bool :=
  error.classOf == .transfer

def message : FormatError → String
  | fieldCutShort => "I/O error: failed to fill whole buffer"
  | runCutShort => "I/O error: unexpected end of file"
  | sinkFull => "I/O error: failed to write whole buffer"
  | invalidMagic found => "Invalid magic: " ++ Hex.word found
  | unsupportedFormat found => s!"Unsupported format version: {found.toNat}"
  | incompatibleRuntime found running =>
    s!"Incompatible runtime version {found.text} (running {running.text})"
  | unknownLiteralTag tag => s!"Unknown literal tag: {tag.toNat}"
  | unknownAuxiliaryTag tag => s!"Unknown aux descriptor tag: {tag.toNat}"
  | unknownExceptionKind code => s!"Unknown exception range kind: {code.toNat}"
  | unknownMethodKind code => s!"Unknown method kind: {code.toNat}"
  | invalidBoolean found => s!"Invalid boolean byte: {found.toNat}"
  | invalidSign found => s!"Invalid big integer sign: {found.toNat}"
  | limitExceeded what length max => s!"{what} length {length} exceeds limit {max}"
  | listCountMismatch first second =>
    s!"Foreach list count mismatch: {first.toNat} != {second.toNat}"
  | duplicateJumpKey key => s!"Duplicate jump table key: {key}"
  | invalidText what => s!"Invalid UTF-8 in {what}"
  | nestingTooDeep max => s!"Literal nesting exceeds depth {max}"

end FormatError

end CompiledScript
