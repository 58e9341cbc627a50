/-!
# Doubles as exact numbers

The bit pattern of a double is a sign, an exponent and a fraction.  A finite
double is a whole number times a power of two, so everything about its decimal
forms can be decided with whole numbers.

The reals that are read as a given double form an interval around it: half the
gap to either neighbour, with its ends included exactly when the significand is
even.  Below a power of two the gap is half as wide as above it.
-/

namespace CompiledScript.Decimal

set_option autoImplicit false

/-- A magnitude `significand * 2 ^ exponent` among its neighbours. -/
structure Binary where
  significand : Nat
  exponent : Int
  /-- Whether the neighbour below is half as far away as the one above. -/
  narrowBelow : Bool
deriving DecidableEq, Inhabited, Repr

inductive Double where
  | notANumber
  | infinite (negative : Bool)
  | finite (negative : Bool) (magnitude : Binary)
deriving DecidableEq, Inhabited, Repr

namespace Double

def ofBits (bits : UInt64) : Double :=
  let negative := 9223372036854775808 ≤ bits.toNat
  let exponent := bits.toNat / 4503599627370496 % 2048
  let fraction := bits.toNat % 4503599627370496
  if exponent = 2047 then
    if fraction = 0 then infinite negative else notANumber
  else if exponent = 0 then finite negative ⟨fraction, -1074, false⟩
  else
    finite negative
      ⟨4503599627370496 + fraction, (exponent : Int) - 1075,
        decide (fraction = 0 ∧ 1 < exponent)⟩

end Double

/-! ## Comparing decimals with a double -/

/-- The sizes of a grid of decimals and of a quarter of a double's unit, as whole numbers in
a common measure. -/
structure Scale where
  grid : Nat
  quarter : Nat
deriving DecidableEq, Inhabited, Repr

namespace Binary

/-- The common measure of the multiples of `10 ^ power` and of a double. -/
def scale (binary : Binary) (power : Int) : Scale :=
  let exponent := binary.exponent - 2
  ⟨Nat.pow 10 power.toNat * Nat.pow 2 (-exponent).toNat,
    Nat.pow 2 exponent.toNat * Nat.pow 10 (-power).toNat⟩

def value (binary : Binary) (scale : Scale) : Nat := 4 * binary.significand * scale.quarter

def lower (binary : Binary) (scale : Scale) : Nat :=
  (4 * binary.significand - if binary.narrowBelow then 1 else 2) * scale.quarter

def upper (binary : Binary) (scale : Scale) : Nat :=
  (4 * binary.significand + 2) * scale.quarter

/-- Whether a multiple of the grid's unit is read as a double. -/
def readsBack (binary : Binary) (scale : Scale) (multiple : Nat) : Bool :=
  let point := multiple * scale.grid
  if binary.significand % 2 = 0 then
    binary.lower scale ≤ point && point ≤ binary.upper scale
  else
    binary.lower scale < point && point < binary.upper scale

/-- The exponent of the leading decimal digit of a double that is not zero. -/
def leadingExponent (binary : Binary) : Int :=
  let scale := binary.scale 0
  let value := binary.value scale
  if scale.grid ≤ value then ((Nat.toDigits 10 (value / scale.grid)).length : Int) - 1
  else -((Nat.toDigits 10 ((scale.grid - 1) / value)).length : Int)

end Binary

end CompiledScript.Decimal
