import CompiledScript.Auxiliary.Basic
import CompiledScript.Wire.Decoder
import CompiledScript.Wire.Encoder

/-!
# Auxiliary records on the wire

A record is its tag followed by a body.  Jump tables are written in key order,
so equal tables have equal bytes; on reading, keys may come in any order but a
key that comes twice is refused once its offset has been read.  A loop record
states its number of lists twice, and the two counts have to agree.
-/

namespace CompiledScript.Auxiliary

set_option autoImplicit false

/-! ## Writing -/

def encodeSlots (limits : Limits) (what : String) (slots : List UInt32) : Encoder :=
  Encoder.table what limits.maxElements slots Encoder.word32

/-- A jump table with its keys in order. -/
def encodeJumps {κ : Type} [JumpKey κ] (limits : Limits) (encodeKey : κ → Encoder)
    (table : JumpTable κ) : Encoder :=
  Encoder.table "jump table" limits.maxElements table.entries fun entry =>
    encodeKey entry.1 ++ Encoder.word32 entry.2.toUInt32

def encodeLoop (limits : Limits) (loop : ForeachLoop) : Encoder :=
  Encoder.count "foreach lists" loop.lists.length limits.maxElements ++
  Encoder.word32 loop.counter ++
  Encoder.word32 loop.firstValue ++
  Encoder.table "foreach lists" limits.maxElements loop.lists
    (encodeSlots limits "foreach vars")

/-- A record as its tag and its body. -/
def encode (limits : Limits) (record : Auxiliary) : Encoder :=
  Encoder.word32 record.tag.code ++
  match record with
  | textJumps table => encodeJumps limits (Encoder.text limits "jump table key") table
  | integerJumps table => encodeJumps limits Encoder.int64 table
  | dictUpdate slots => encodeSlots limits "dict update" slots
  | foreach loop => encodeLoop limits loop

/-! ## Reading -/

def decodeSlots (limits : Limits) (what : String) : Decoder (List UInt32) :=
  Decoder.table what limits.maxElements Decoder.word32

/-- The table read so far with `count` further entries, all of whose keys are new. -/
def decodeEntries {κ : Type} [JumpKey κ] [DecidableEq κ] (decodeKey : Decoder κ)
    (keyText : κ → String) : (count : Nat) → (read : JumpTable κ) → Decoder (JumpTable κ)
  | 0, read => return read
  | count + 1, read => do
    let key ← decodeKey
    let offset ← Decoder.word32
    if read.contains key then throw (.duplicateJumpKey (keyText key))
    else decodeEntries decodeKey keyText count (read.insert key offset.toInt32)

/-- A jump table with its keys in any order. -/
def decodeJumps {κ : Type} [JumpKey κ] [DecidableEq κ] (limits : Limits)
    (decodeKey : Decoder κ) (keyText : κ → String) : Decoder (JumpTable κ) := do
  let count ← Decoder.count "jump table" limits.maxElements
  decodeEntries decodeKey keyText count .empty

/-- The bindings of a loop, whose second count is compared with the first. -/
def decodeLoop (limits : Limits) (layout : ForeachLayout) : Decoder ForeachLoop := do
  let count ← Decoder.count "foreach lists" limits.maxElements
  let counter ← Decoder.word32
  let firstValue ← Decoder.word32
  let second ← Decoder.word32
  if second.toNat ≠ count then throw (.listCountMismatch (UInt32.ofNat count) second)
  else
    let lists ← Decoder.times count (decodeSlots limits "foreach vars")
    return { layout, counter, firstValue, lists }

def decode (limits : Limits) : Decoder Auxiliary := do
  let code ← Decoder.word32
  match Tag.ofCode? code with
  | none => throw (.unknownAuxiliaryTag code)
  | some .textJumps =>
    return textJumps (← decodeJumps limits (Decoder.text limits "jump table key") id)
  | some .integerJumps =>
    return integerJumps (← decodeJumps limits Decoder.int64 fun key => toString key.toInt)
  | some .dictUpdate => return dictUpdate (← decodeSlots limits "dict update")
  | some .foreachLegacy => return foreach (← decodeLoop limits .legacy)
  | some .foreach => return foreach (← decodeLoop limits .current)

end CompiledScript.Auxiliary
