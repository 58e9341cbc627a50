import CompiledScript.Auxiliary.JumpTable

/-!
# Auxiliary records

Some instructions refer to a structure that is not a value of the language: a
jump table, the variables touched by a dictionary update, or the bindings of a
loop over lists.  A block carries these as auxiliary records.

Dictionary updates and loops use local slots that appear in no table of
variables, so a record also says which slot is the highest it refers to.  A loop
over several lists keeps their values in as many consecutive slots.
-/

namespace CompiledScript

set_option autoImplicit false

/-- The two wire layouts of a loop record, which carry the same bindings. -/
inductive ForeachLayout where
  | legacy
  | current
deriving DecidableEq, Inhabited, Repr

/-- The variable bindings of a loop over lists. -/
structure ForeachLoop where
  layout : ForeachLayout
  counter : UInt32
  /-- The first of the consecutive slots that hold the lists. -/
  firstValue : UInt32
  /-- The loop variables of each list. -/
  lists : List (List UInt32)
deriving DecidableEq, Inhabited

/-- A structure that instructions refer to. -/
inductive Auxiliary where
  | textJumps (table : JumpTable String)
  | integerJumps (table : JumpTable Int64)
  | dictUpdate (slots : List UInt32)
  | foreach (loop : ForeachLoop)
deriving DecidableEq, Inhabited

namespace Auxiliary

/-! ## Tags -/

/-- The kinds of records on the wire. -/
inductive Tag where
  | textJumps
  | integerJumps
  | dictUpdate
  | foreachLegacy
  | foreach
deriving DecidableEq, Inhabited, Repr

/-- Every tag, in the order of the codes. -/
def Tag.all : List Tag := [textJumps, integerJumps, dictUpdate, foreachLegacy, foreach]

def Tag.code : Tag → UInt32
  | textJumps => 1
  | integerJumps => 2
  | dictUpdate => 3
  | foreachLegacy => 4
  | foreach => 5

def Tag.name : Tag → String
  | textJumps => "jumptable-str"
  | integerJumps => "jumptable-num"
  | dictUpdate => "dictupdate"
  | foreachLegacy => "foreach-legacy"
  | foreach => "foreach"

def Tag.ofCode? (code : UInt32) : Option Tag := all.find? (·.code == code)

def tag : Auxiliary → Tag
  | textJumps _ => .textJumps
  | integerJumps _ => .integerJumps
  | dictUpdate _ => .dictUpdate
  | foreach loop =>
    match loop.layout with
    | .legacy => .foreachLegacy
    | .current => .foreach

/-! ## Local slots -/

/-- The sum of two words, or the greatest word where the sum is beyond it. -/
def saturatingAdd (left right : UInt32) : UInt32 :=
  if BitVec.uaddOverflow left.toBitVec right.toBitVec then 4294967295 else left + right

/-- How far the last of the slots that hold the lists of a loop comes behind the first.  Only a loop
that has lists has such slots. -/
def valueReach (loop : ForeachLoop) : UInt32 := UInt32.ofNat loop.lists.length - 1

/-- The last of the consecutive slots that hold the lists of a loop. -/
def lastValue? (loop : ForeachLoop) : Option UInt32 :=
  match loop.lists.length with
  | 0 => none
  | _ + 1 => some (saturatingAdd loop.firstValue (valueReach loop))

/-- The highest slot a record refers to. -/
def highestLocal? : Auxiliary → Option UInt32
  | textJumps _ | integerJumps _ => none
  | dictUpdate slots => slots.max?
  | foreach loop => (loop.lists.flatten ++ loop.counter :: (lastValue? loop).toList).max?

end Auxiliary

end CompiledScript
