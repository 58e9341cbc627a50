import CompiledScript.Proofs.Script.Bytewise
import CompiledScript.Proofs.Script.Movement

/-!
# Looking at the bytes of a text

The bytewise parser looks at bytes where the parser looks at characters.  This module
says that both see the same: at the start of a text, in a run of ASCII characters, and
when a text is cut out between two positions that the parser has been at.
-/

set_option autoImplicit false

namespace CompiledScript

open Cursor

/-! ## Positions, words and commands as bytes -/

def Cursor.bytes (cursor : Cursor) : Bytewise.Position := ⟨cursor.offset, .ofChars cursor.rest⟩

def Word.bytes (word : Word) : Bytewise.Word :=
  ⟨.ofText word.value, word.literal, word.form, word.offset⟩

def Command.bytes (command : Command) : Bytewise.Command :=
  ⟨command.words.map Word.bytes, command.offset⟩

def WordState.bytes (state : WordState) : Bytewise.WordState :=
  ⟨.ofChars state.value.reverse, state.literal⟩

/-- What the bytes of a text give when its characters give this. -/
def Parsed.bytes {α β : Type} (encode : α → β) (parsed : Parsed α) : Bytewise.Found β :=
  ⟨parsed.outcome.map encode, parsed.cursor.bytes⟩

namespace Bytewise

open Bytes

/-- What may end words and commands early: nothing, or the closing bracket of a substitution. -/
def Closing (terminator : Option Char) : Prop := ∀ char, terminator = some char → char = ']'

theorem Closing.ascii {terminator : Option Char} (closing : Closing terminator) :
    AsciiKind fun char => some char == terminator := by
  intro char same
  rw [closing char (eq_of_beq same).symm]
  decide

/-! ## Characters at the start of a text -/

theorem letters_ascii {char : Char} (ascii : char.toNat < 128) (rest : List Char) :
    letters (ofChars (char :: rest)) = char :: letters (ofChars rest) := by
  obtain ⟨lead, more, encoded, spelled⟩ := exists_ofChars_cons char rest
  obtain ⟨same, rfl⟩ := spelled.ascii ascii
  rw [encoded, letters, List.map_cons, same]
  rfl

/-- A text of which the bytes start with an ASCII character starts with this character. -/
theorem of_letters {char : Char} (ascii : char.toNat < 128) {chars tail : List Char}
    (starts : letters (ofChars chars) = char :: tail) :
    ∃ rest, chars = char :: rest ∧ tail = letters (ofChars rest) := by
  cases chars with
  | nil => cases starts
  | cons first rest =>
    obtain ⟨lead, more, encoded, spelled⟩ := exists_ofChars_cons first rest
    rw [encoded, letters, List.map_cons] at starts
    have same : letter lead = char := (List.cons.inj starts).1
    have first_eq : first = char := by
      have both := spelled.eq _ ascii
      rw [same, beq_self_eq_true] at both
      exact eq_of_beq both.symm
    obtain ⟨-, rfl⟩ := spelled.ascii (first_eq ▸ ascii)
    exact ⟨rest, congrArg (· :: rest) first_eq, (List.cons.inj starts).2.symm⟩

/-- An ASCII character at the start of a text is its first byte. -/
theorem ofChars_ascii (char : Char) (ascii : char.toNat < 128) (rest : List Char) :
    ∃ byte, letter byte = char ∧ ofChars (char :: rest) = byte :: ofChars rest := by
  obtain ⟨lead, more, encoded, spelled⟩ := exists_ofChars_cons char rest
  obtain ⟨same, rfl⟩ := spelled.ascii ascii
  exact ⟨lead, same, encoded⟩

/-- Behind the first byte of a text stand the continuation bytes of its first character. -/
theorem exists_continuation (char : Char) (rest : List Char) :
    ∃ more, (ofChars (char :: rest)).drop 1 = more ++ ofChars rest ∧
      min 1 (ofChars (char :: rest)).length + more.length = char.utf8Size ∧
      ∀ byte ∈ more, isContinuation byte = true := by
  obtain ⟨lead, more, encoded, spelled⟩ := exists_ofChars_cons char rest
  refine ⟨more, ?_, ?_, spelled.continues⟩
  · rw [encoded]
    rfl
  · have size := spelled.size
    rw [encoded, List.length_cons]
    omega

/-- A loop that steps over every continuation byte steps over any number of them. -/
theorem steps_over_continuation {α : Type} {loop : (offset : Nat) → Bytes → α}
    (steps : ∀ byte, isContinuation byte = true →
      ∀ offset bytes, loop offset (byte :: bytes) = loop (offset + 1) bytes)
    {more : Bytes} (continues : ∀ byte ∈ more, isContinuation byte = true) (offset : Nat)
    (bytes : Bytes) : loop offset (more ++ bytes) = loop (offset + more.length) bytes := by
  induction more generalizing offset with
  | nil => rfl
  | cons byte more ih =>
    obtain ⟨first, others⟩ := List.forall_mem_cons.mp continues
    rw [List.cons_append, steps byte first, ih others, List.length_cons, Nat.add_assoc,
      Nat.add_comm 1]

theorem isContinued_ofChars_iff {chars : List Char} :
    isContinued (ofChars chars) = true ↔ ∃ rest, chars = '\\' :: '\n' :: rest := by
  constructor
  · intro continued
    unfold isContinued at continued
    split at continued
    · rename_i tail starts
      obtain ⟨rest, rfl, further⟩ := of_letters (by decide) starts
      obtain ⟨behind, rfl, -⟩ := of_letters (by decide) further.symm
      exact ⟨behind, rfl⟩
    · cases continued
  · rintro ⟨rest, rfl⟩
    rfl

theorem isContinued_eq_false {char : Char} {rest : List Char}
    (other : ∀ behind, char = '\\' → rest = '\n' :: behind → False) :
    isContinued (ofChars (char :: rest)) = false := by
  rw [Bool.eq_false_iff, Ne, isContinued_ofChars_iff]
  rintro ⟨behind, same⟩
  cases same
  exact other behind rfl rfl

theorem isWordEnd_letters {terminator : Option Char}
    (closing : Closing terminator) (chars : List Char) :
    isWordEnd terminator (letters (ofChars chars)) = isWordEnd terminator chars := by
  by_cases continued : ∃ rest, chars = '\\' :: '\n' :: rest
  · obtain ⟨rest, rfl⟩ := continued
    rw [letters_ascii (by decide), letters_ascii (by decide)]
    rfl
  · cases chars with
    | nil => rfl
    | cons char rest =>
      obtain ⟨lead, more, encoded, spelled⟩ := exists_ofChars_cons char rest
      have lettersOf : letters (ofChars (char :: rest)) =
          letter lead :: letters (more ++ ofChars rest) := by
        rw [encoded]
        rfl
      have other : ∀ behind, char = '\\' → rest = '\n' :: behind → False :=
        fun behind first second => continued ⟨behind, by rw [first, second]⟩
      have otherLetters : ∀ behind, letter lead = '\\' →
          letters (more ++ ofChars rest) = '\n' :: behind → False := by
        intro behind first second
        rw [first, second] at lettersOf
        obtain ⟨_, same, further⟩ := of_letters (by decide) lettersOf
        cases same
        obtain ⟨_, same, -⟩ := of_letters (by decide) further.symm
        exact other _ rfl same
      rw [lettersOf, isWordEnd_cons other, isWordEnd_cons otherLetters]
      simp only [spelled.eq '\n' (by decide), spelled.eq ';' (by decide),
        spelled.kind ascii_isBlank, spelled.kind closing.ascii]

theorem isCommandEnd_letters {terminator : Option Char}
    (closing : Closing terminator) (chars : List Char) :
    isCommandEnd terminator (letters (ofChars chars)) = isCommandEnd terminator chars := by
  cases chars with
  | nil => rfl
  | cons char rest =>
    obtain ⟨lead, more, encoded, spelled⟩ := exists_ofChars_cons char rest
    rw [encoded]
    simp only [letters, List.map_cons, isCommandEnd, spelled.eq '\n' (by decide),
      spelled.eq ';' (by decide), spelled.kind closing.ascii]

theorem startsVariable_letters (chars : List Char) :
    startsVariable (letters (ofChars chars)) = startsVariable chars := by
  cases chars with
  | nil => rfl
  | cons char rest =>
    obtain ⟨lead, more, encoded, spelled⟩ := exists_ofChars_cons char rest
    rw [encoded]
    simp only [letters, List.map_cons, startsVariable, spelled.eq '{' (by decide),
      spelled.kind ascii_isNameChar]

/-! ## Runs of ASCII characters -/

/-- The bytes of a kind of ASCII characters that a text starts with are those of its characters. -/
theorem take_takeWhile_ofChars {kind : Char → Bool} (ascii : AsciiKind kind) (count : Nat)
    (chars : List Char) :
    ((ofChars chars).take count).takeWhile (fun byte => kind (letter byte)) =
      ofChars ((chars.take count).takeWhile kind) := by
  induction chars generalizing count with
  | nil => simp
  | cons char rest ih =>
    cases count with
    | zero => simp
    | succ count =>
      obtain ⟨lead, more, encoded, spelled⟩ := exists_spelled char
      rw [ofChars_cons, encoded, List.cons_append, List.take_succ_cons, List.take_succ_cons,
        List.takeWhile_cons, List.takeWhile_cons, spelled.kind ascii]
      by_cases holds : kind char
      · obtain ⟨-, rfl⟩ := spelled.ascii (ascii char holds)
        rw [if_pos holds, if_pos holds, List.nil_append, ih, ofChars_cons, encoded]
        rfl
      · rw [if_neg holds, if_neg holds]
        rfl

theorem takeWhile_ofChars {kind : Char → Bool} (ascii : AsciiKind kind) (chars : List Char) :
    (ofChars chars).takeWhile (fun byte => kind (letter byte)) =
      ofChars (chars.takeWhile kind) := by
  have all := take_takeWhile_ofChars ascii (octets chars) chars
  rwa [List.take_of_length_le (Nat.le_of_eq (length_ofChars chars)),
    List.take_of_length_le (length_le_octets chars)] at all

theorem letters_ofChars {kind : Char → Bool} (ascii : AsciiKind kind) {chars : List Char}
    (all : chars.all kind = true) : letters (ofChars chars) = chars := by
  induction chars with
  | nil => rfl
  | cons char rest ih =>
    obtain ⟨first, others⟩ := Bool.and_eq_true_iff.mp all
    rw [letters_ascii (ascii char first), ih others]

/-- Behind a run of ASCII characters the bytes go on as the characters do. -/
theorem drop_ofChars {kind : Char → Bool} (ascii : AsciiKind kind) {front chars : List Char}
    (leading : front <+: chars) (all : front.all kind = true) :
    (ofChars chars).drop front.length = ofChars (chars.drop front.length) := by
  obtain ⟨back, rfl⟩ := leading
  rw [← octets_of_kind ascii all, ofChars_append, ← length_ofChars, List.drop_left, length_ofChars,
    octets_of_kind ascii all, List.drop_left]

/-! ## Cutting texts -/

theorem cut_bytes (cursor : Cursor) : cut cursor.bytes = .ok () :=
  if_pos (starts_ofChars cursor.rest)

/-- The text between two positions may be cut out. -/
theorem slice_bytes (start stop : Cursor) {passed : List Char}
    (split : start.rest = passed ++ stop.rest) (offset : stop.offset = start.offset + octets passed) :
    slice start.bytes stop.bytes = .ok (ofChars passed) := by
  have inside : ¬(stop.offset < start.offset ∨
      start.offset + (ofChars start.rest).length < stop.offset) := by
    rw [length_ofChars, split, octets_append]
    omega
  have between : (ofChars start.rest).take (stop.offset - start.offset) = ofChars passed := by
    rw [split, ofChars_append, offset, Nat.add_sub_cancel_left, ← length_ofChars, List.take_left]
  rw [slice, cut_bytes, cut_bytes]
  simp only [bind, Except.bind]
  rw [← between]
  exact if_neg inside

/-- The source text between two positions is what stands between them. -/
theorem slice_textTo {start stop : Cursor} (leads : start.Leads stop) :
    slice start.bytes stop.bytes = .ok (ofText (textTo start stop)) := by
  obtain ⟨passed, split, offset⟩ := leads
  rw [slice_bytes start stop split offset, ofText_eq, textTo_eq split offset,
    String.toList_ofList]

theorem nextChar_ofChars (offset : Nat) (char : Char) (rest : List Char) :
    nextChar ⟨offset, ofChars (char :: rest)⟩ =
      .ok (ofChars [char], ⟨offset + char.utf8Size, ofChars rest⟩) := by
  have boundary := cut_bytes ⟨offset, char :: rest⟩
  obtain ⟨lead, more, encoded, spelled⟩ := exists_spelled char
  have size : sizeFrom lead = (lead :: more).length := by
    rw [spelled.sizeFrom, ← spelled.size, List.length_cons]
  have whole : ofChars (char :: rest) = lead :: more ++ ofChars rest := by
    rw [ofChars_cons, encoded]
  rw [Cursor.bytes] at boundary
  simp only [whole] at boundary ⊢
  rw [nextChar, boundary]
  simp only [bind, Except.bind, List.cons_append, pure, Except.pure]
  rw [size, ← List.cons_append, List.take_left, List.drop_left, ← size, spelled.sizeFrom]
  simp [encoded]

end Bytewise

end CompiledScript
