import CompiledScript.Literal.Basic

/-!
# Observational equality

Two literals are equal when no program can tell them apart: doubles by their
bits, lists item by item, and maps by what they send each key to, whatever the
order of their entries.  Blocks are equal when their code, pools, records,
ranges and stack depth agree and they need the same number of local slots,
however that number was recorded.

Maps are compared by their number of entries and by looking up every entry of
the left one in the right one, again under this equality.
-/

namespace CompiledScript

set_option autoImplicit false

mutual

/-- Whether two literals cannot be told apart. -/
def Literal.equal : Literal → Literal → Bool
  | .int left, .int right => left == right
  | .bigInt left, .bigInt right => left == right
  | .boolean left, .boolean right => left == right
  | .bytes left, .bytes right => left == right
  | .map left, .map right => left.length == right.length && MapEntry.allFoundIn left right
  | .double left, .double right => left == right
  | .list left, .list right => Literal.equalLists left right
  | .text left, .text right => left == right
  | .closure leftScope leftParameters leftBody, .closure rightScope rightParameters rightBody =>
    leftScope == rightScope && Parameter.equalLists leftParameters rightParameters &&
      Block.equal leftBody rightBody
  | .block leftScope leftBody, .block rightScope rightBody =>
    leftScope == rightScope && Block.equal leftBody rightBody
  | _, _ => false

def Literal.equalLists : List Literal → List Literal → Bool
  | [], [] => true
  | left :: lefts, right :: rights => left.equal right && Literal.equalLists lefts rights
  | _, _ => false

/-- Whether every entry has an entry with an equal key and value in the second list. -/
def MapEntry.allFoundIn : List MapEntry → List MapEntry → Bool
  | [], _ => true
  | ⟨key, value⟩ :: entries, others =>
    (match others.find? fun other => key.equal other.key with
      | some found => value.equal found.value
      | none => false) && MapEntry.allFoundIn entries others

/-- Whether two lists of parameters have equal names and equal values to fall back to. -/
def Parameter.equalLists : List Parameter → List Parameter → Bool
  | [], [] => true
  | ⟨leftName, none⟩ :: lefts, ⟨rightName, none⟩ :: rights =>
    leftName == rightName && Parameter.equalLists lefts rights
  | ⟨leftName, some left⟩ :: lefts, ⟨rightName, some right⟩ :: rights =>
    leftName == rightName && left.equal right && Parameter.equalLists lefts rights
  | _, _ => false

/-- Whether two blocks cannot be told apart. -/
def Block.equal : Block → Block → Bool
  | ⟨code, literals, auxiliaries, exceptions, maxStack, compiledLocals, localTable⟩, other =>
    code == other.code && Literal.equalLists literals other.literals &&
      auxiliaries == other.auxiliaries && exceptions == other.exceptions &&
      maxStack == other.maxStack &&
      Block.localCount
        ⟨code, literals, auxiliaries, exceptions, maxStack, compiledLocals, localTable⟩ ==
        other.localCount

end

instance : BEq Literal := ⟨Literal.equal⟩

instance : BEq Block := ⟨Block.equal⟩

end CompiledScript
