import CompiledScript.Toml.Digit
import CompiledScript.Toml.Reader
import CompiledScript.Toml.Value

/-!
# Numbers, dates and other words

A value that is not between quotes, brackets or braces is a word.  It is a truth
value, an integer in one of four bases, a number with a fraction or a power of
ten, or a date or time of day.
-/

namespace CompiledScript.Toml

set_option autoImplicit false

/-! ## Numbers -/

/-- The value of decimal digits that do not start with a zero in vain. -/
def decimal? : List Char → Option Nat
  | ['0'] => some 0
  | '0' :: _ => none
  | chars => digits? 10 chars

/-- A sign, and what stands behind it. -/
def withoutSign : List Char → Bool × List Char
  | '-' :: chars => (true, chars)
  | '+' :: chars => (false, chars)
  | chars => (false, chars)

def integer? : List Char → Option Int
  | '0' :: 'x' :: chars => Int.ofNat <$> digits? 16 chars
  | '0' :: 'o' :: chars => Int.ofNat <$> digits? 8 chars
  | '0' :: 'b' :: chars => Int.ofNat <$> digits? 2 chars
  | chars => do
    let (negative, chars) := withoutSign chars
    let magnitude ← decimal? chars
    return if negative then -magnitude else magnitude

/-- The power of ten behind a mantissa, if there is a mark for it. -/
def power? (isPowerMark : Char → Bool) : List Char → Option (Option Int)
  | [] => some none
  | char :: chars =>
    if isPowerMark char then do
      let (negative, chars) := withoutSign chars
      let power ← digits? 10 chars
      return some (if negative then -power else power)
    else none

/-- The magnitude of a number with a fraction or a power of ten; there is none for an
infinity and for no number. -/
def float? (chars : List Char) : Option (Option (Nat × Int)) := do
  let (_, chars) := withoutSign chars
  if chars = ['i', 'n', 'f'] ∨ chars = ['n', 'a', 'n'] then return none
  let isPowerMark (char : Char) := char == 'e' || char == 'E'
  let mantissa := chars.takeWhile (!isPowerMark ·)
  let power? ← power? isPowerMark (chars.dropWhile (!isPowerMark ·))
  let whole ← decimal? (mantissa.takeWhile (· != '.'))
  match mantissa.dropWhile (· != '.') with
  | [] => return some (whole, ← power?)
  | _ :: fraction =>
    let places := (fraction.filter (· != '_')).length
    return some (whole * Nat.pow 10 places + (← digits? 10 fraction), power?.getD 0 - places)

/-! ## Dates and times -/

/-- The value of exactly `count` decimal digits. -/
def readDigits (count : Nat) : Reader Nat := fun chars => do
  let digits := chars.take count
  if digits.length = count ∧ digits.all Char.isDigit then
    return (← digits? 10 digits, chars.drop count)
  else none

def daysIn (year month : Nat) : Nat :=
  if month = 2 then
    if year % 4 = 0 ∧ (year % 100 ≠ 0 ∨ year % 400 = 0) then 29 else 28
  else if month ∈ [4, 6, 9, 11] then 30
  else 31

def readDate : Reader Unit := do
  let year ← readDigits 4
  .expect "-"
  let month ← readDigits 2
  .expect "-"
  let day ← readDigits 2
  .require (1 ≤ month ∧ month ≤ 12 ∧ 1 ≤ day ∧ day ≤ daysIn year month)

/-- A time of day, of which the seconds may be left out. -/
def readTime : Reader Unit := do
  let hour ← readDigits 2
  .expect ":"
  let minute ← readDigits 2
  .require (hour ≤ 23 ∧ minute ≤ 59)
  if ← .passes ":" then
    let second ← readDigits 2
    .require (second ≤ 60)
    if ← .passes "." then
      .require !(← .run Char.isDigit).isEmpty

/-- The distance of a time zone, which may be left out. -/
def readZone : Reader Unit := do
  let mark? ← .peek?
  if mark?.isNone then return
  let mark ← .next
  unless mark == 'Z' || mark == 'z' do
    .require (mark == '+' || mark == '-')
    let hours ← readDigits 2
    .expect ":"
    let minutes ← readDigits 2
    .require (hours ≤ 23 ∧ minutes ≤ 59)

/-- A date, a time of day or both. -/
def readMoment : Reader Unit := do
  if (← get)[2]? = some ':' then readTime
  else
    readDate
    if let some mark ← .peek? then
      .require (mark == 'T' || mark == 't' || mark == ' ')
      let _ ← .next
      readTime
      readZone

/-! ## Words -/

def word? (chars : List Char) : Option Value :=
  if chars = ['t', 'r', 'u', 'e'] then some (.boolean true)
  else if chars = ['f', 'a', 'l', 's', 'e'] then some (.boolean false)
  else
    match integer? chars, float? chars with
    | some value, _ => some (.integer value)
    | none, some magnitude => some (.float magnitude)
    | none, none =>
      if (readMoment.whole? chars).isSome then some (.moment (String.ofList chars)) else none

end CompiledScript.Toml
