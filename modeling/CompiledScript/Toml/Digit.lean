/-!
# Digits

Numbers are written in bases up to sixteen with letters of either case.  Two
digits of a number may have an underscore between them, which says nothing about
its value.
-/

namespace CompiledScript.Toml

set_option autoImplicit false

/-- The value of a digit in a base. -/
def digit? (base : Nat) (char : Char) : Option Nat :=
  let value? :=
    if '0' ≤ char ∧ char ≤ '9' then some (char.toNat - '0'.toNat)
    else if 'a' ≤ char ∧ char ≤ 'z' then some (char.toNat - 'a'.toNat + 10)
    else if 'A' ≤ char ∧ char ≤ 'Z' then some (char.toNat - 'A'.toNat + 10)
    else none
  value?.filter (· < base)

/-- The value of digits behind a digit; one underscore may stand before each. -/
def digitsAfter? (base value : Nat) : List Char → Option Nat
  | [] => some value
  | '_' :: char :: chars => do digitsAfter? base (value * base + (← digit? base char)) chars
  | char :: chars => do digitsAfter? base (value * base + (← digit? base char)) chars

/-- The value of digits, of which two may have an underscore between them. -/
def digits? (base : Nat) : List Char → Option Nat
  | [] => none
  | char :: chars => do digitsAfter? base (← digit? base char) chars

end CompiledScript.Toml
