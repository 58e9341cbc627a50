/-!
# Blanks

A blank is a character with the property `White_Space` of Unicode.  Texts are
split into words at runs of blanks, and blanks at either end make no word.
-/

namespace CompiledScript.Blank

set_option autoImplicit false

def contains (char : Char) : Bool :=
  let code := char.toNat
  (0x9 ≤ code && code ≤ 0xd) || code == 0x20 || code == 0x85 || code == 0xa0 || code == 0x1680 ||
    (0x2000 ≤ code && code ≤ 0x200a) || code == 0x2028 || code == 0x2029 || code == 0x202f ||
    code == 0x205f || code == 0x3000

/-- A word put in front of others unless it is empty; its characters are given backwards. -/
def consWord (word : List Char) (words : List String) : List String :=
  if word.isEmpty then words else String.ofList word.reverse :: words

/-- The words of characters, of which the first continues the given one. -/
def wordsFrom (word : List Char) : List Char → List String
  | [] => consWord word []
  | char :: chars =>
    if contains char then consWord word (wordsFrom [] chars) else wordsFrom (char :: word) chars

def words (text : String) : List String := wordsFrom [] text.toList

end CompiledScript.Blank
