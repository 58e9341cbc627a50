import CompiledScript.Decimal.Shortest

/-!
# Laying out decimals

A finite double is written with the fewest digits that read back.  Numbers of
moderate size are written with all their places and at least one behind the
point; all others with a power of ten behind an `e`.  Where the one form ends and
the other begins, how a positive power is marked and what stands for values that
are not finite belongs to the output that the number appears in.
-/

namespace CompiledScript.Decimal

set_option autoImplicit false

/-- The decisions of an output on how it writes doubles. -/
structure Layout where
  /-- The least power of the leading digit at which all places are written. -/
  placesFrom : Int
  /-- The greatest power of the leading digit at which all places are written. -/
  placesTo : Int
  /-- Which of two equally near decimals is written. -/
  tie : TieRule
  /-- The mark of a positive power of ten. -/
  positivePower : String
  notANumber : String
  infinity : String
  negativeInfinity : String
deriving DecidableEq, Inhabited, Repr

/-- Digits without the zeros at their end, of which a single digit is kept. -/
def withoutFinalZeros (digits : List Char) : List Char :=
  match (digits.reverse.dropWhile (· == '0')).reverse with
  | [] => digits.take 1
  | kept => kept

def places (digits : List Char) (power : Int) : String :=
  if power < 0 then
    "0." ++ String.ofList (List.replicate (-power - 1).toNat '0' ++ digits)
  else
    let whole := power.toNat + 1
    let padded := digits ++ List.replicate (whole - digits.length) '0'
    let fraction := match padded.drop whole with
      | [] => ['0']
      | fraction => fraction
    String.ofList (padded.take whole) ++ "." ++ String.ofList fraction

namespace Layout

/-- The digits of a number whose leading digit has the given power, and the power. -/
def withPower (layout : Layout) (digits : List Char) (power : Int) : String :=
  let fraction := match digits.drop 1 with
    | [] => ""
    | fraction => "." ++ String.ofList fraction
  let mark := if 0 < power then layout.positivePower else ""
  String.ofList (digits.take 1) ++ fraction ++ "e" ++ mark ++ toString power

def writeMagnitude (layout : Layout) (magnitude : Binary) : String :=
  if magnitude.significand = 0 then "0.0"
  else
    let shortest := magnitude.shortest layout.tie
    let digits := Nat.toDigits 10 shortest.digits
    let power := shortest.power + digits.length - 1
    let digits := withoutFinalZeros digits
    if layout.placesFrom ≤ power ∧ power ≤ layout.placesTo then places digits power
    else layout.withPower digits power

def write (layout : Layout) (bits : UInt64) : String :=
  match Double.ofBits bits with
  | .notANumber => layout.notANumber
  | .infinite negative => if negative then layout.negativeInfinity else layout.infinity
  | .finite negative magnitude =>
    (if negative then "-" else "") ++ layout.writeMagnitude magnitude

end Layout

end CompiledScript.Decimal
