import CompiledScript.Bytes
import CompiledScript.Script.Parser

/-!
# Scripts as bytes

A script is stored as the bytes of its characters.  An ASCII character is one byte of
the same number, and every other character is a lead byte and continuation bytes, none of
which is the number of an ASCII character.  So whoever looks for ASCII characters may
look at one byte after the other, and finds them where the characters are, provided that
the kind of character that is looked for has no others.
-/

set_option autoImplicit false

namespace CompiledScript

/-! ## Sizes -/

/-- The number of bytes that characters take up in a text. -/
def octets : List Char → Nat
  | [] => 0
  | char :: chars => char.utf8Size + octets chars

@[simp] theorem octets_nil : octets [] = 0 := rfl

@[simp] theorem octets_cons (char : Char) (chars : List Char) :
    octets (char :: chars) = char.utf8Size + octets chars := rfl

@[simp] theorem octets_append (front back : List Char) :
    octets (front ++ back) = octets front + octets back := by
  induction front with
  | nil => exact (Nat.zero_add _).symm
  | cons char front ih => rw [List.cons_append, octets_cons, octets_cons, ih, Nat.add_assoc]

theorem length_le_octets (chars : List Char) : chars.length ≤ octets chars := by
  induction chars with
  | nil => exact Nat.le_refl _
  | cons char chars ih =>
    have positive : 0 < char.utf8Size := char.utf8Size_pos
    rw [List.length_cons, octets_cons]
    omega

theorem octets_le_of_suffix {back whole : List Char} (suffix : back <:+ whole) :
    octets back ≤ octets whole := by
  obtain ⟨front, rfl⟩ := suffix
  rw [octets_append]
  exact Nat.le_add_left _ _

/-! ## Kinds of characters that are all ASCII -/

/-- An ASCII character is one byte. -/
theorem utf8Size_of_ascii {char : Char} (ascii : char.toNat < 128) : char.utf8Size = 1 := by
  have small : char.val ≤ 127 := UInt32.le_iff_toNat_le.mpr (Nat.le_of_lt_succ ascii)
  simp [Char.utf8Size, small]

/-- A kind of characters that are all ASCII. -/
def AsciiKind (kind : Char → Bool) : Prop := ∀ char, kind char = true → char.toNat < 128

theorem octets_of_kind {kind : Char → Bool} (ascii : AsciiKind kind) {chars : List Char}
    (all : chars.all kind = true) : octets chars = chars.length := by
  induction chars with
  | nil => rfl
  | cons char chars ih =>
    obtain ⟨first, others⟩ := Bool.and_eq_true_iff.mp all
    have size : char.utf8Size = 1 := utf8Size_of_ascii (ascii char first)
    rw [octets_cons, size, ih others, List.length_cons, Nat.add_comm]

theorem ascii_eq (char : Char) (ascii : char.toNat < 128) : AsciiKind (· == char) := by
  intro other same
  cases eq_of_beq same
  exact ascii

theorem ascii_isBlank : AsciiKind Cursor.isBlank := by
  intro char blank
  simp only [Cursor.isBlank, Bool.or_eq_true, beq_iff_eq] at blank
  rcases blank with (((rfl | rfl) | rfl) | rfl) | rfl <;> decide

theorem ascii_isIndent : AsciiKind Backslash.isIndent := by
  intro char indent
  simp only [Backslash.isIndent, Bool.or_eq_true, beq_iff_eq] at indent
  rcases indent with rfl | rfl <;> decide

theorem ascii_isNameChar : AsciiKind Cursor.isNameChar := by
  have below {char : Char} {last : UInt32} (within : char.val ≤ last) (small : last.toNat < 128) :
      char.toNat < 128 := Nat.lt_of_le_of_lt (UInt32.le_iff_toNat_le.mp within) small
  intro char name
  rcases Bool.or_eq_true_iff.mp name with mark | alphanumeric
  · simp only [Bool.or_eq_true, beq_iff_eq] at mark
    rcases mark with rfl | rfl <;> decide
  · rcases Bool.or_eq_true_iff.mp alphanumeric with letter | digit
    · rcases Bool.or_eq_true_iff.mp letter with upper | lower
      · exact below (of_decide_eq_true upper).2 (by decide)
      · exact below (of_decide_eq_true (Bool.and_eq_true_iff.mp lower).2) (by decide)
    · exact below (of_decide_eq_true (Bool.and_eq_true_iff.mp digit).2) (by decide)

theorem ascii_hexDigit : AsciiKind fun char => (Backslash.hexDigit? char).isSome := by
  intro char digit
  simp only [Backslash.hexDigit?, Char.le_def, UInt32.le_iff_toNat_le] at digit
  split at digit
  · rename_i bounds
    exact Nat.lt_of_le_of_lt bounds.2 (by decide)
  · split at digit
    · rename_i bounds
      exact Nat.lt_of_le_of_lt bounds.2 (by decide)
    · split at digit
      · rename_i bounds
        exact Nat.lt_of_le_of_lt bounds.2 (by decide)
      · cases digit

theorem ascii_octalDigit : AsciiKind fun char => (Backslash.octalDigit? char).isSome := by
  intro char digit
  simp only [Backslash.octalDigit?, Char.le_def, UInt32.le_iff_toNat_le] at digit
  split at digit
  · rename_i bounds
    exact Nat.lt_of_le_of_lt bounds.2 (by decide)
  · cases digit

/-! ## Bytes -/

/-- The character of the same number as a byte, by which bytes are compared with ASCII characters. -/
def letter (byte : UInt8) : Char := .ofUInt8 byte

/-- Whether a byte continues a character rather than starting one. -/
def isContinuation (byte : UInt8) : Bool := 128 ≤ byte.toNat && byte.toNat < 192

/-- The number of bytes of a character that starts with the given one. -/
def sizeFrom (lead : UInt8) : Nat :=
  if lead.toNat < 128 then 1 else if lead.toNat < 224 then 2 else if lead.toNat < 240 then 3 else 4

namespace Bytes

/-- The bytes of characters. -/
def ofChars (chars : List Char) : Bytes := chars.flatMap String.utf8EncodeChar

theorem ofText_eq (text : String) : ofText text = ofChars text.toList := by
  rw [ofText, ← String.utf8Encode_toList]
  exact List.toList_data_toByteArray

@[simp] theorem ofChars_nil : ofChars [] = [] := rfl

@[simp] theorem ofChars_cons (char : Char) (chars : List Char) :
    ofChars (char :: chars) = String.utf8EncodeChar char ++ ofChars chars := rfl

@[simp] theorem ofChars_append (front back : List Char) :
    ofChars (front ++ back) = ofChars front ++ ofChars back := List.flatMap_append

@[simp] theorem length_ofChars (chars : List Char) : (ofChars chars).length = octets chars := by
  induction chars with
  | nil => rfl
  | cons char chars ih =>
    rw [ofChars_cons, List.length_append, String.length_utf8EncodeChar, ih, octets_cons]

end Bytes

theorem octets_toList (text : String) : octets text.toList = text.utf8ByteSize := by
  rw [← Bytes.length_ofChars, ← Bytes.ofText_eq]
  rfl

/-- How a character is spelled: a lead byte, and continuation bytes. -/
structure Spelled (char : Char) (lead : UInt8) (more : Bytes) : Prop where
  size : more.length + 1 = char.utf8Size
  sizeFrom : sizeFrom lead = char.utf8Size
  starts : isContinuation lead = false
  continues : ∀ byte ∈ more, isContinuation byte = true
  ascii : char.toNat < 128 → letter lead = char ∧ more = []
  wide : 128 ≤ char.toNat → 128 ≤ lead.toNat

/-- The continuation bytes of the encoding carry six bits each. -/
theorem isContinuation_ofNat (bits : Nat) :
    isContinuation (UInt8.ofNat (bits % 64 + 128)) = true := by
  simp only [isContinuation, UInt8.toNat_ofNat', Bool.and_eq_true, decide_eq_true_eq]
  omega

/-- A character that is not ASCII is spelled by a lead byte and continuation bytes. -/
theorem spelled_wide {char : Char} {lead : UInt8} {more : Bytes}
    (encoded : String.utf8EncodeChar char = lead :: more) (wide : 128 ≤ char.toNat)
    (leads : 192 ≤ lead.toNat) (size : sizeFrom lead = more.length + 1)
    (continues : ∀ byte ∈ more, isContinuation byte = true) : Spelled char lead more where
  size := by rw [← String.length_utf8EncodeChar, encoded, List.length_cons]
  sizeFrom := by rw [size, ← String.length_utf8EncodeChar, encoded, List.length_cons]
  starts := by
    simp only [isContinuation, Bool.and_eq_false_iff, decide_eq_false_iff_not]
    omega
  continues := continues
  ascii small := by omega
  wide _ := by omega

theorem exists_spelled (char : Char) :
    ∃ lead more, String.utf8EncodeChar char = lead :: more ∧ Spelled char lead more := by
  have value : char.val.toNat = char.toNat := rfl
  by_cases ascii : char.toNat < 128
  · have size := utf8Size_of_ascii ascii
    refine ⟨char.val.toUInt8, [], String.utf8EncodeChar_eq_singleton size, ?_⟩
    have number : char.val.toUInt8.toNat = char.toNat := by
      rw [UInt32.toNat_toUInt8, value]
      omega
    refine ⟨size.symm, ?_, ?_, nofun, fun _ => ⟨?_, rfl⟩, fun wide => by omega⟩
    · rw [size, sizeFrom, number, if_pos ascii]
    · simp only [isContinuation, number, Bool.and_eq_false_iff, decide_eq_false_iff_not]
      omega
    · exact Char.toNat_inj.mp number
  · have wide : 128 ≤ char.toNat := Nat.le_of_not_lt ascii
    have encoded : String.utf8EncodeChar char = String.utf8EncodeChar char := rfl
    conv at encoded => rhs; rw [String.utf8EncodeChar]
    simp only [value, show ¬ char.toNat ≤ 127 by omega, if_false] at encoded
    split at encoded
    · refine ⟨_, _, encoded, spelled_wide encoded wide ?_ ?_ ?_⟩
      · rw [UInt8.toNat_ofNat']
        omega
      · simp only [sizeFrom, UInt8.toNat_ofNat', List.length_cons, List.length_nil]
        rw [if_neg (by omega), if_pos (by omega)]
      · simp only [List.forall_mem_cons, isContinuation_ofNat, List.not_mem_nil, false_implies,
          implies_true, and_self]
    · split at encoded
      · refine ⟨_, _, encoded, spelled_wide encoded wide ?_ ?_ ?_⟩
        · rw [UInt8.toNat_ofNat']
          omega
        · simp only [sizeFrom, UInt8.toNat_ofNat', List.length_cons, List.length_nil]
          rw [if_neg (by omega), if_neg (by omega), if_pos (by omega)]
        · simp only [List.forall_mem_cons, isContinuation_ofNat, List.not_mem_nil, false_implies,
          implies_true, and_self]
      · refine ⟨_, _, encoded, spelled_wide encoded wide ?_ ?_ ?_⟩
        · rw [UInt8.toNat_ofNat']
          omega
        · simp only [sizeFrom, UInt8.toNat_ofNat', List.length_cons, List.length_nil]
          rw [if_neg (by omega), if_neg (by omega), if_neg (by omega)]
        · simp only [List.forall_mem_cons, isContinuation_ofNat, List.not_mem_nil, false_implies,
          implies_true, and_self]

namespace Spelled

variable {char : Char} {lead : UInt8} {more : Bytes}

/-- The lead byte is of a kind of ASCII characters if the character is. -/
theorem kind (spelled : Spelled char lead more) {kind : Char → Bool} (ascii : AsciiKind kind) :
    kind (letter lead) = kind char := by
  by_cases small : char.toNat < 128
  · rw [(spelled.ascii small).1]
  · have large := spelled.wide (Nat.le_of_not_lt small)
    have foreign : kind (letter lead) = false := by
      rw [Bool.eq_false_iff]
      intro holds
      exact Nat.not_lt_of_le large (ascii _ holds)
    have absent : kind char = false := by
      rw [Bool.eq_false_iff]
      exact fun holds => small (ascii _ holds)
    rw [foreign, absent]

/-- The lead byte is an ASCII character if the character is this one. -/
theorem eq (spelled : Spelled char lead more) (other : Char) (ascii : other.toNat < 128) :
    (letter lead == other) = (char == other) :=
  spelled.kind (ascii_eq other ascii)

end Spelled

/-- A continuation byte is of no kind of ASCII characters. -/
theorem kind_of_continuation {kind : Char → Bool} (ascii : AsciiKind kind) {byte : UInt8}
    (continues : isContinuation byte = true) : kind (letter byte) = false := by
  rw [Bool.eq_false_iff]
  intro holds
  have small : byte.toNat < 128 := ascii _ holds
  simp only [isContinuation, Bool.and_eq_true, decide_eq_true_eq] at continues
  omega

namespace Bytes

/-- The first byte of a text belongs to its first character. -/
theorem exists_ofChars_cons (char : Char) (rest : List Char) :
    ∃ lead more, ofChars (char :: rest) = lead :: (more ++ ofChars rest) ∧
      Spelled char lead more := by
  obtain ⟨lead, more, encoded, spelled⟩ := exists_spelled char
  refine ⟨lead, more, ?_, spelled⟩
  rw [ofChars_cons, encoded, List.cons_append]

/-- A text may be cut where a character starts. -/
theorem starts_ofChars (chars : List Char) :
    (ofChars chars).head?.all (!isContinuation ·) = true := by
  cases chars with
  | nil => rfl
  | cons char rest =>
    obtain ⟨lead, more, spelled⟩ := exists_ofChars_cons char rest
    rw [spelled.1, List.head?_cons, Option.all_some, spelled.2.starts]
    rfl

end Bytes

end CompiledScript
