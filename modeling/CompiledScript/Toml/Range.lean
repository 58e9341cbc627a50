import CompiledScript.Toml.Value

/-!
# The range of numbers

TOML numbers may be of any size, but only some are taken: integers that fit into
128 bits, signed or unsigned, and other numbers that do not round to infinity as
doubles.  A value is in range if all numbers in it are.
-/

namespace CompiledScript.Toml

set_option autoImplicit false

/-- Whether `coefficient * 10 ^ power` rounds to a double that is finite.  Far from the
bound the number of digits decides. -/
def isFinite (coefficient : Nat) (power : Int) : Bool :=
  let bound := Nat.pow 2 1024 - Nat.pow 2 970
  let leading := (Nat.toDigits 10 coefficient).length + power
  if coefficient = 0 ∨ leading < 300 then true
  else if 320 < leading then false
  else if power < 0 then coefficient < bound * Nat.pow 10 (-power).toNat
  else coefficient * Nat.pow 10 power.toNat < bound

def fitsInteger (value : Int) : Bool := -Int.pow 2 127 ≤ value && value < Int.pow 2 128

namespace Value

mutual

/-- Whether all numbers in a value are taken. -/
def isInRange : Value → Bool
  | .integer value => fitsInteger value
  | .float (some (coefficient, power)) => isFinite coefficient power
  | .array items => areInRange items
  | .table _ entries => haveRange entries
  | .series tables => tablesHaveRange tables
  | .text _ | .float none | .boolean _ | .moment _ => true

def areInRange : List Value → Bool
  | [] => true
  | value :: values => isInRange value && areInRange values

def haveRange : List (String × Value) → Bool
  | [] => true
  | (_, value) :: entries => isInRange value && haveRange entries

def tablesHaveRange : List (List (String × Value)) → Bool
  | [] => true
  | entries :: tables => haveRange entries && tablesHaveRange tables

end

end Value

end CompiledScript.Toml
