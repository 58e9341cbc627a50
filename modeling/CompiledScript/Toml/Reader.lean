/-!
# Reading characters

A reader takes characters off the front of a list and gives a value for them, or
refuses them.  Nothing is said about why, because a document that is refused
anywhere is refused as a whole.
-/

namespace CompiledScript.Toml

set_option autoImplicit false

/-- Takes characters off the front and gives a value for them, or refuses them. -/
abbrev Reader (α : Type) := StateT (List Char) Option α

namespace Reader

variable {α σ : Type}

def refuse : Reader α := fun _ => none

/-- Refuses what stands there unless a condition holds. -/
def require (condition : Bool) : Reader Unit := if condition then pure () else refuse

/-- The next character, which stays where it is. -/
def peek? : Reader (Option Char) := fun chars => some (chars.head?, chars)

def next : Reader Char
  | [] => none
  | char :: chars => some (char, chars)

/-- The longest run of characters of a class. -/
def run (isMember : Char → Bool) : Reader (List Char) := fun chars =>
  some (chars.takeWhile isMember, chars.dropWhile isMember)

/-- Passes over the given characters if they come next, and says whether they did. -/
def passes (text : String) : Reader Bool := fun chars =>
  if text.toList.isPrefixOf chars then some (true, chars.drop text.length)
  else some (false, chars)

/-- Passes over the given characters, which must come next. -/
def expect (text : String) : Reader Unit := do require (← passes text)

/-- Repeats a step until it has a result, at most once for each of the given characters
and once more. -/
def repeatFor (step : σ → Reader (σ ⊕ α)) : (chars : List Char) → σ → Reader α
  | [], state => do
    match ← step state with
    | .inl _ => refuse
    | .inr result => return result
  | _ :: chars, state => do
    match ← step state with
    | .inl state => repeatFor step chars state
    | .inr result => return result

/-- Repeats a step until it has a result; a step without one must take a character. -/
def iterate (step : σ → Reader (σ ⊕ α)) (state : σ) : Reader α := fun chars =>
  repeatFor step chars state chars

/-- The value of a reader that takes exactly the given characters. -/
def whole? (reader : Reader α) (chars : List Char) : Option α :=
  match reader chars with
  | some (value, []) => some value
  | _ => none

end Reader

end CompiledScript.Toml
