import CompiledScript.Decimal.Binary

/-!
# The shortest decimals that read back

Among the decimals that are read as a given double, those with the fewest digits
are sought on one grid after the other, coarser grids first.  If a grid has a
point in the interval of the double, then one of the two points next to the
double is such a point, so on every grid only these two are tried.  If both are
read as the double, the nearer one is taken; when they are equally near, a rule
decides.

Seventeen digits are always enough for a double.
-/

namespace CompiledScript.Decimal

set_option autoImplicit false

/-- A number `digits * 10 ^ power`. -/
structure Scaled where
  digits : Nat
  power : Int
deriving DecidableEq, Inhabited, Repr

/-- Which of two decimals is taken that are equally near. -/
inductive TieRule where
  /-- The larger one. -/
  | up
  /-- The one whose last digit is even. -/
  | toEven
deriving DecidableEq, Inhabited, Repr

/-- Whether the upper one of two neighbours is taken, given their distances from the double
and the lower one. -/
def TieRule.takesUpper (rule : TieRule) (below above lower : Nat) : Bool :=
  if below = above then
    match rule with
    | up => true
    | toEven => lower % 2 = 1
  else above < below

namespace Binary

/-- The point of a grid that is taken for a double, if one of the two next to it is read as
the double. -/
def onGrid? (binary : Binary) (rule : TieRule) (power : Int) : Option Nat :=
  let scale := binary.scale power
  let value := binary.value scale
  let lower := value / scale.grid
  match binary.readsBack scale lower, binary.readsBack scale (lower + 1) with
  | true, true =>
    let below := value - lower * scale.grid
    let above := (lower + 1) * scale.grid - value
    some (if rule.takesUpper below above lower then lower + 1 else lower)
  | true, false => some lower
  | false, true => some (lower + 1)
  | false, false => none

/-- The first decimal found on the grid of a power or on the `count` grids after it, each ten
times as fine as the one before. -/
def fromGrid (binary : Binary) (rule : TieRule) : (count : Nat) → (power : Int) → Scaled
  | 0, power =>
    let scale := binary.scale power
    ⟨binary.value scale / scale.grid, power⟩
  | count + 1, power =>
    match binary.onGrid? rule power with
    | some digits => ⟨digits, power⟩
    | none => fromGrid binary rule count (power - 1)

/-- The shortest decimal that is read as a double which is not zero. -/
def shortest (binary : Binary) (rule : TieRule) : Scaled :=
  binary.fromGrid rule 17 binary.leadingExponent

end Binary

end CompiledScript.Decimal
