import CompiledScript.Auxiliary.Codec
import CompiledScript.Literal.Dictionary

/-!
# Literals and blocks on the wire

A literal is its tag followed by a body.  Maps, lists, lambdas and blocks hold
further literals, and each of them opens one level of nesting.  How many levels
may still be opened is what both directions recurse on: with no level left a
literal of one of these kinds is refused right after its tag, and otherwise its
body is written or read with one level less.

The entries of a map are written in the order of the bytes of their keys.  The
keys are therefore encoded first, each on its own and inside the level of the
map, and nothing of the map is written if one of them is refused.  Reading
accepts the entries in any order, and a key that comes again replaces the value
it had.

Integers have three tags.  A wide integer is written as an unsigned word where
that is possible and a signed one is not, and otherwise as a sign and its
shortest magnitude.
-/

namespace CompiledScript

set_option autoImplicit false

/-! ## Writing -/

namespace Block

/-- A block in the order of its sections, with the given encoder for its literals.
The word between the stack depth and the number of locals is reserved. -/
def encodeWith (limits : Limits) (encodeLiteral : Literal → Encoder) (block : Block) : Encoder :=
  Encoder.count "code" block.code.length limits.maxCodeLength ++
  Encoder.raw block.code ++
  Encoder.table "literals" limits.maxLiterals block.literals encodeLiteral ++
  Encoder.table "aux" limits.maxAuxiliaries block.auxiliaries (Auxiliary.encode limits) ++
  Encoder.table "exceptions" limits.maxExceptions block.exceptions ExceptionRange.encode ++
  Encoder.word32 block.maxStack ++
  Encoder.word32 0 ++
  match block.checkedLocalCount with
  | .ok count => Encoder.word32 count
  | .error error => Encoder.fail error

end Block

namespace Literal

/-- The sign codes of integers. -/
def signCode (value : Int) : UInt8 :=
  if value = 0 then 0 else if value < 0 then 2 else 1

/-- An integer as its sign and its shortest magnitude. -/
def encodeInteger (limits : Limits) (value : Int) : Encoder :=
  Encoder.byte (signCode value) ++
  Encoder.bytes limits "bignum magnitude" (Bytes.shortest value.natAbs)

/-- The encoded keys of a map, each with the value it stands for. -/
def stageKeys (encodeKey : Literal → Encoder) :
    List MapEntry → Except FormatError (List (Bytes × Literal))
  | [] => .ok []
  | entry :: entries =>
    match (encodeKey entry.key).bytes? with
    | .error error => .error error
    | .ok key =>
      match stageKeys encodeKey entries with
      | .error error => .error error
      | .ok staged => .ok ((key, entry.value) :: staged)

/-- Staged entries in the order of the bytes of their keys. -/
def sortStaged (staged : List (Bytes × Literal)) : List (Bytes × Literal) :=
  staged.mergeSort fun first second => decide (first.1 ≤ second.1)

/-- The entries of a map, written in the order of the bytes of their keys. -/
def encodeMap (limits : Limits) (encodeItem : Literal → Encoder) (entries : List MapEntry) :
    Encoder :=
  match stageKeys encodeItem entries with
  | .error error => Encoder.fail error
  | .ok staged =>
    Encoder.table "map" limits.maxElements (sortStaged staged) fun entry =>
      Encoder.raw entry.1 ++ encodeItem entry.2

/-- A parameter: its name, whether it is optional, and the value to fall back to. -/
def encodeParameter (limits : Limits) (encodeItem : Literal → Encoder) (parameter : Parameter) :
    Encoder :=
  Encoder.text limits "closure arg name" parameter.name ++
  Encoder.boolean parameter.fallback.isSome ++
  match parameter.fallback with
  | some fallback => encodeItem fallback
  | none => Encoder.nothing

/-- The body of a literal that opens a level of nesting, which is refused when
there is no encoder for the level below. -/
def encodeInside (limits : Limits) (inner : Option (Literal → Encoder))
    (body : (Literal → Encoder) → Encoder) : Encoder :=
  match inner with
  | none => Encoder.fail (.nestingTooDeep limits.maxDepth)
  | some encodeItem => body encodeItem

/-- A literal, with the given encoder for the literals one level below it. -/
def encodeWith (limits : Limits) (inner : Option (Literal → Encoder)) (literal : Literal) :
    Encoder :=
  Encoder.word32 literal.tag.code ++
  match literal with
  | int value => Encoder.int64 value
  | bigInt value =>
    if needsUnsigned value then Encoder.word64 (UInt64.ofNat value.toNat)
    else encodeInteger limits value
  | boolean value => Encoder.boolean value
  | bytes value => Encoder.bytes limits "byte string" value
  | map entries => encodeInside limits inner fun encodeItem => encodeMap limits encodeItem entries
  | double bits => Encoder.word64 bits
  | list items => encodeInside limits inner (Encoder.table "list" limits.maxElements items)
  | text value => Encoder.text limits "text string" value
  | closure scope parameters body =>
    encodeInside limits inner fun encodeItem =>
      Encoder.text limits "closure namespace" scope ++
      Encoder.table "closure args" limits.maxElements parameters
        (encodeParameter limits encodeItem) ++
      Block.encodeWith limits encodeItem body
  | block scope body =>
    encodeInside limits inner fun encodeItem =>
      Encoder.text limits "block namespace" scope ++ Block.encodeWith limits encodeItem body

/-- A literal that may open `levels` levels of nesting. -/
def encodeWithin (limits : Limits) : (levels : Nat) → Literal → Encoder
  | 0, literal => encodeWith limits none literal
  | levels + 1, literal => encodeWith limits (some (encodeWithin limits levels)) literal

def encode (limits : Limits) (literal : Literal) : Encoder :=
  encodeWithin limits limits.maxDepth literal

end Literal

def Block.encode (limits : Limits) (block : Block) : Encoder :=
  block.encodeWith limits (Literal.encode limits)

/-! ## Reading -/

namespace Block

/-- A block in the order of its sections, with the given decoder for its literals. -/
def decodeWith (limits : Limits) (decodeLiteral : Decoder Literal) : Decoder Block := do
  let codeLength ← Decoder.count "code" limits.maxCodeLength
  let code ← Decoder.run codeLength
  let literals ← Decoder.table "literals" limits.maxLiterals decodeLiteral
  let auxiliaries ← Decoder.table "aux" limits.maxAuxiliaries (Auxiliary.decode limits)
  let exceptions ← Decoder.table "exceptions" limits.maxExceptions ExceptionRange.decode
  let maxStack ← Decoder.word32
  let _reserved ← Decoder.word32
  let locals ← Decoder.word32
  return ⟨code, literals, auxiliaries, exceptions, maxStack, some locals, none⟩

end Block

namespace Literal

/-- The integer of a sign code and a magnitude, of which a zero in either decides. -/
def ofSignAndMagnitude (sign : UInt8) (magnitude : Bytes) : Int :=
  if sign = 0 then 0
  else if sign = 2 then -(Bytes.toNat magnitude : Int)
  else Bytes.toNat magnitude

def decodeInteger (limits : Limits) : Decoder Int := do
  let sign ← Decoder.byte
  if 2 < sign then throw (.invalidSign sign)
  else
    let magnitude ← Decoder.bytes limits "bignum magnitude"
    return ofSignAndMagnitude sign magnitude

/-- The literal of an unsigned word: a signed integer if the word is one. -/
def ofUnsigned (word : UInt64) : Literal :=
  if word.toNat < 9223372036854775808 then int word.toInt64 else bigInt word.toNat

def decodeEntry (decodeItem : Decoder Literal) : Decoder MapEntry := do
  let key ← decodeItem
  let value ← decodeItem
  return ⟨key, value⟩

def decodeParameter (limits : Limits) (decodeItem : Decoder Literal) : Decoder Parameter := do
  let name ← Decoder.text limits "closure arg name"
  if ← Decoder.boolean then return ⟨name, some (← decodeItem)⟩ else return ⟨name, none⟩

/-- The body of a literal that opens a level of nesting, which is refused when
there is no decoder for the level below. -/
def decodeInside {α : Type} (limits : Limits) (inner : Option (Decoder Literal))
    (body : Decoder Literal → Decoder α) : Decoder α :=
  match inner with
  | none => throw (.nestingTooDeep limits.maxDepth)
  | some decodeItem => body decodeItem

/-- A literal behind its tag, with the given decoder for the literals one level below it. -/
def decodeWith (limits : Limits) (inner : Option (Decoder Literal)) : Decoder Literal := do
  let code ← Decoder.word32
  match Tag.ofCode? code with
  | none => throw (.unknownLiteralTag code)
  | some .bignum => return bigInt (← decodeInteger limits)
  | some .boolean => return boolean (← Decoder.boolean)
  | some .bytes => return bytes (← Decoder.bytes limits "byte string")
  | some .map =>
    decodeInside limits inner fun decodeItem => do
      let pairs ← Decoder.table "map" limits.maxElements (decodeEntry decodeItem)
      return map (Dictionary.ofList pairs)
  | some .double => return double (← Decoder.word64)
  | some .list =>
    decodeInside limits inner fun decodeItem => do
      return list (← Decoder.table "list" limits.maxElements decodeItem)
  | some .text => return text (← Decoder.text limits "text string")
  | some .int64 => return int (← Decoder.int64)
  | some .uint64 => return ofUnsigned (← Decoder.word64)
  | some .closure =>
    decodeInside limits inner fun decodeItem => do
      let scope ← Decoder.text limits "closure namespace"
      let parameters ←
        Decoder.table "closure args" limits.maxElements (decodeParameter limits decodeItem)
      return closure scope parameters (← Block.decodeWith limits decodeItem)
  | some .block =>
    decodeInside limits inner fun decodeItem => do
      let scope ← Decoder.text limits "block namespace"
      return block scope (← Block.decodeWith limits decodeItem)

/-- A literal that may open `levels` levels of nesting. -/
def decodeWithin (limits : Limits) : (levels : Nat) → Decoder Literal
  | 0 => fun input => decodeWith limits none input
  | levels + 1 => fun input => decodeWith limits (some (decodeWithin limits levels)) input

def decode (limits : Limits) : Decoder Literal :=
  decodeWithin limits limits.maxDepth

end Literal

def Block.decode (limits : Limits) : Decoder Block :=
  Block.decodeWith limits (Literal.decode limits)

end CompiledScript
