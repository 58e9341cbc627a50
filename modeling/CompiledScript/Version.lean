/-!
# Runtime versions

A container records the version of the runtime that produced it.  A runtime
loads containers of its own major version whose minor version is not newer than
its own, so acceptance is upward closed in the running minor version and never
crosses a major version.
-/

set_option autoImplicit false

namespace CompiledScript

/-- A major and a minor version number. -/
structure RuntimeVersion where
  /-- A container is loaded only by runtimes of the same major version. -/
  major : UInt16
  /-- A container is loaded only by runtimes that are not older. -/
  minor : UInt16
deriving DecidableEq, Inhabited, Repr

namespace RuntimeVersion

/-- The one-word form: the major version in the upper half, the minor in the lower. -/
def pack (version : RuntimeVersion) : UInt32 :=
  UInt32.ofNat (version.major.toNat * 65536 + version.minor.toNat)

/-- The version whose one-word form is given. -/
def unpack (word : UInt32) : RuntimeVersion where
  major := UInt16.ofNat (word.toNat / 65536)
  minor := UInt16.ofNat (word.toNat % 65536)

/-- Whether a runtime of version `running` loads what version `producer` wrote. -/
def canLoad (running producer : RuntimeVersion) : Bool :=
  producer.major == running.major && producer.minor ≤ running.minor

/-- Versions are ordered by major and then by minor number. -/
def compare (left right : RuntimeVersion) : Ordering :=
  (Ord.compare left.major right.major).then (Ord.compare left.minor right.minor)

/-- The usual written form, the two numbers with a point between them. -/
def text (version : RuntimeVersion) : String :=
  toString version.major.toNat ++ "." ++ toString version.minor.toNat

/-! ## Reading -/

/-- Why a text is no 16-bit number. -/
inductive NumberError where
  | empty
  | notADigit
  | tooLarge
deriving DecidableEq, Inhabited, Repr

def NumberError.message : NumberError → String
  | empty => "cannot parse integer from empty string"
  | notADigit => "invalid digit found in string"
  | tooLarge => "number too large to fit in target type"

/-- Why a text is no version. -/
inductive TextError where
  /-- There is no point in it. -/
  | noPoint (text : String)
  /-- What stands in front of the point is no major version. -/
  | badMajor (text : String) (error : NumberError)
  /-- What stands behind the point is no minor version. -/
  | badMinor (text : String) (error : NumberError)
deriving DecidableEq, Inhabited, Repr

def TextError.message : TextError → String
  | noPoint text => s!"expected MAJOR.MINOR, got `{text}`"
  | badMajor text error => s!"bad major version `{text}`: {error.message}"
  | badMinor text error => s!"bad minor version `{text}`: {error.message}"

/-- The number that digits continue, of which the first that cannot be taken counts. -/
def numberAfter (value : Nat) : List Char → Except NumberError UInt16
  | [] => .ok (UInt16.ofNat value)
  | char :: chars =>
    let longer := 10 * value + (char.toNat - '0'.toNat)
    if !char.isDigit then .error .notADigit
    else if 65535 < longer then .error .tooLarge
    else numberAfter longer chars

/-- The number that characters are the decimal form of; a plus may stand in front. -/
def number : List Char → Except NumberError UInt16
  | [] => .error .empty
  | ['+'] => .error .notADigit
  | '+' :: chars => numberAfter 0 chars
  | chars => numberAfter 0 chars

/-- The version that a text is the written form of. -/
def ofText (text : String) : Except TextError RuntimeVersion :=
  let major := text.toList.takeWhile (· != '.')
  match text.toList.drop major.length with
  | [] => .error (.noPoint text)
  | _ :: minor => do
    return {
      major := ← (number major).mapError (.badMajor (String.ofList major))
      minor := ← (number minor).mapError (.badMinor (String.ofList minor)) }

/-! ## Laws -/

theorem canLoad_iff (running producer : RuntimeVersion) :
    running.canLoad producer = true ↔
      producer.major = running.major ∧ producer.minor ≤ running.minor := by
  simp [canLoad]

/-- A version may load what it has written itself. -/
theorem canLoad_self (version : RuntimeVersion) : version.canLoad version = true := by
  simp [canLoad]

theorem unpack_pack (version : RuntimeVersion) : unpack version.pack = version := by
  obtain ⟨major, minor⟩ := version
  have majorBound := major.toNat_lt
  have minorBound := minor.toNat_lt
  simp only [pack, unpack, RuntimeVersion.mk.injEq]
  constructor
  · apply UInt16.toNat_inj.mp
    simp only [UInt32.toNat_ofNat', UInt16.toNat_ofNat']
    omega
  · apply UInt16.toNat_inj.mp
    simp only [UInt32.toNat_ofNat', UInt16.toNat_ofNat']
    omega

end RuntimeVersion

end CompiledScript
