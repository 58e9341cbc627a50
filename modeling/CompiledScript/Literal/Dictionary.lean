import CompiledScript.Literal.Equality

/-!
# Maps as insertion-ordered dictionaries

The entries of a map keep the order in which their keys were first put in.
Putting in a key that is already there replaces its value where it stands and
keeps the key as it was first written.  Keys are compared by observational
equality, so two maps with the same entries in another order are one key, while
zeros of either sign and NaNs of different payloads are different keys.
-/

namespace CompiledScript.Dictionary

set_option autoImplicit false

def get? (entries : List MapEntry) (key : Literal) : Option Literal :=
  (entries.find? fun entry => entry.key == key).map MapEntry.value

/-- The entries with one key added at the end, or with its value replaced in place. -/
def insert (key value : Literal) : List MapEntry → List MapEntry
  | [] => [⟨key, value⟩]
  | entry :: entries =>
    if entry.key == key then { entry with value } :: entries
    else entry :: insert key value entries

/-- The entries left after putting in the given ones in order. -/
def ofList (pairs : List MapEntry) : List MapEntry :=
  pairs.foldl (fun entries pair => insert pair.key pair.value entries) []

/-- Puts in an entry and tells the value that it replaces, if the key is there already. -/
def put (key value : Literal) : List MapEntry → Option Literal × List MapEntry
  | [] => (none, [⟨key, value⟩])
  | entry :: entries =>
    if entry.key == key then (some entry.value, { entry with value } :: entries)
    else
      let (replaced, others) := put key value entries
      (replaced, entry :: others)

/-- Puts in the given entries in order and tells what each of them replaces. -/
def putAll : List MapEntry → List MapEntry → List (Option Literal) × List MapEntry
  | [], entries => ([], entries)
  | pair :: pairs, entries =>
    let (replaced, entries) := put pair.key pair.value entries
    let (others, entries) := putAll pairs entries
    (replaced :: others, entries)

end CompiledScript.Dictionary
