import CompiledScript.Proofs.Script.Collapse

/-!
# The parser and its bytes agree

Every function of the bytewise parser comes back when it is run on the bytes of a text,
and with what the parser makes of the characters.  The proofs follow the recursion of the
parser.  A loop that steps over bytes may leave a character half passed, behind its lead
byte or behind a backslash and its lead byte; then only continuation bytes are left of
it, and all loops pass these without looking at them, so that they are back in step at the
next character.

The nesting of substitutions is counted in characters by the parser and in bytes here.
Either count is enough, and a substitution is skipped in the same way by both as long as
fewer characters are left than there are levels.
-/

set_option autoImplicit false

namespace CompiledScript

open Cursor

namespace Bytewise

open Bytes

/-! ## Gaps -/

theorem skipBlanks_ofChars (offset : Nat) (chars : List Char) :
    skipBlanks offset (ofChars chars) = (Cursor.skipBlanks offset chars).bytes := by
  fun_induction Cursor.skipBlanks offset chars with
  | case1 =>
    rw [ofChars_nil, skipBlanks]
    rfl
  | case2 offset rest ih =>
    rw [← ih]
    show skipBlanks offset (0x5c :: 0x0a :: ofChars rest) = _
    rw [skipBlanks, if_neg (by decide)]
    exact if_pos rfl
  | case3 offset char rest _ blank ih =>
    obtain ⟨lead, more, encoded, spelled⟩ := exists_ofChars_cons char rest
    obtain ⟨-, rfl⟩ := spelled.ascii (ascii_isBlank char blank)
    rw [← ih, encoded, skipBlanks, spelled.kind ascii_isBlank, if_pos blank]
    rfl
  | case4 offset char rest notContinued notBlank =>
    have notHere := isContinued_eq_false notContinued
    obtain ⟨lead, more, encoded, spelled⟩ := exists_ofChars_cons char rest
    rw [bytes, encoded]
    rw [encoded] at notHere
    rw [skipBlanks, spelled.kind ascii_isBlank, if_neg notBlank, notHere]
    simp

/-- In a comment, continuation bytes are passed like any others. -/
theorem skipGap_continuation {terminator : Option Char}
    (closing : Closing terminator) {more : Bytes}
    (continues : ∀ byte ∈ more, isContinuation byte = true) (offset : Nat) (bytes : Bytes) :
    skipGap terminator true offset (more ++ bytes) =
      skipGap terminator true (offset + more.length) bytes := by
  refine steps_over_continuation (fun byte first offset bytes => ?_) continues offset bytes
  have lineEnd := kind_of_continuation (ascii_eq '\n' (by decide)) first
  have backslash := kind_of_continuation (ascii_eq '\\' (by decide)) first
  have stop := kind_of_continuation closing.ascii first
  rw [skipGap, lineEnd, backslash, stop]
  rfl

theorem skipGap_ofChars {terminator : Option Char}
    (closing : Closing terminator) (inComment : Bool) (offset : Nat)
    (chars : List Char) :
    skipGap terminator inComment offset (ofChars chars) =
      (Cursor.skipGap terminator inComment offset chars).bytes := by
  fun_induction Cursor.skipGap terminator inComment offset chars with
  | case1 =>
    rw [ofChars_nil, skipGap]
    rfl
  | case2 offset char rest ih =>
    obtain ⟨more, behind, size, continues⟩ := exists_continuation char rest
    obtain ⟨byte, same, encoded⟩ := ofChars_ascii '\\' (by decide) (char :: rest)
    rw [encoded, skipGap, same, behind, ← ih, ← size]
    simp [skipGap_continuation closing continues, Nat.add_assoc]
  | case3 inComment offset char rest notComment lineEnd ih =>
    cases eq_of_beq lineEnd
    obtain ⟨byte, same, encoded⟩ := ofChars_ascii '\\' (by decide) ('\n' :: rest)
    have continued : isContinued (byte :: ofChars ('\n' :: rest)) = true := by
      rw [← encoded]
      exact isContinued_ofChars_iff.mpr ⟨rest, rfl⟩
    rw [encoded, skipGap, same, continued, ← ih]
    simp [notComment, isBlank]
    rfl
  | case4 inComment offset char rest notComment notLineEnd =>
    have notHere : isContinued (ofChars ('\\' :: char :: rest)) = false :=
      isContinued_eq_false fun behind _ further => notLineEnd (by simp [(List.cons.inj further).1])
    obtain ⟨byte, same, encoded⟩ := ofChars_ascii '\\' (by decide) (char :: rest)
    rw [bytes, encoded]
    rw [encoded] at notHere
    rw [skipGap, same, notHere]
    simp [notComment, isBlank]
  | case5 inComment offset char rest _ lineEnd ih =>
    cases eq_of_beq lineEnd
    obtain ⟨byte, same, encoded⟩ := ofChars_ascii '\n' (by decide) rest
    rw [encoded, skipGap, same, ← ih]
    simp
  | case6 offset char rest other notLineEnd stop =>
    obtain ⟨byte, same, encoded⟩ := ofChars_ascii char (closing.ascii char stop) rest
    cases closing char (eq_of_beq stop).symm
    rw [bytes, encoded, skipGap, same]
    simp [eq_of_beq stop]
  | case7 offset char rest other notLineEnd notStop ih =>
    obtain ⟨lead, more, encoded, spelled⟩ := exists_ofChars_cons char rest
    rw [encoded, skipGap, spelled.eq '\n' (by decide),
      spelled.eq '\\' (by decide), spelled.kind closing.ascii, ← ih]
    by_cases backslash : char = '\\'
    · cases rest with
      | cons next behind => exact absurd rfl (other next behind backslash)
      | nil =>
        subst backslash
        obtain ⟨-, rfl⟩ := spelled.ascii (by decide)
        simp [skipGap]
        rfl
    · simp [notLineEnd, notStop, backslash, skipGap_continuation closing spelled.continues,
        Nat.add_assoc, Nat.add_comm 1, spelled.size]
  | case8 inComment offset char rest _ notLineEnd notComment separates ih =>
    have small : char.toNat < 128 := by
      rcases Bool.or_eq_true_iff.mp separates with blank | semicolon
      · exact ascii_isBlank char blank
      · exact ascii_eq ';' (by decide) char semicolon
    obtain ⟨byte, same, encoded⟩ := ofChars_ascii char small rest
    rw [encoded, skipGap, same, ← ih]
    simp [notLineEnd, notComment, separates]
  | case9 inComment offset char rest _ _ notComment _ sharp ih =>
    cases eq_of_beq sharp
    obtain ⟨byte, same, encoded⟩ := ofChars_ascii '#' (by decide) rest
    have notHere : isContinued (byte :: ofChars rest) = false := by
      rw [← encoded]
      exact isContinued_eq_false fun behind first => absurd first (by decide)
    rw [encoded, skipGap, same, notHere, ← ih]
    simp [notComment, isBlank]
  | case10 inComment offset char rest other notLineEnd notComment notSeparates notSharp =>
    have notHere := isContinued_eq_false fun behind first further => other '\n' behind first further
    obtain ⟨lead, more, encoded, spelled⟩ := exists_ofChars_cons char rest
    rw [encoded] at notHere
    rw [bytes, encoded, skipGap, spelled.eq '\n' (by decide),
      spelled.eq '#' (by decide), spelled.eq ';' (by decide),
      spelled.kind ascii_isBlank, notHere]
    simp_all

/-! ## Variables -/

/-- A way to skip substitutions that does with the bytes what another one does with the characters, as
long as fewer than a number of characters are left. -/
def Agrees (inner : Substitution) (skip : Skip) (bound : Nat) : Prop :=
  ∀ (opening : Nat) (cursor : Cursor), cursor.rest.length < bound →
    skip opening cursor.bytes = .ok ((inner.skip opening cursor).bytes id)

theorem skipBracedName_continuation {more : Bytes}
    (continues : ∀ byte ∈ more, isContinuation byte = true) (word offset : Nat) (bytes : Bytes) :
    skipBracedName word offset (more ++ bytes) =
      skipBracedName word (offset + more.length) bytes := by
  refine steps_over_continuation (fun byte first offset bytes => ?_) continues offset bytes
  have close := kind_of_continuation (ascii_eq '}' (by decide)) first
  rw [skipBracedName, close]
  rfl

theorem skipBracedName_ofChars (word offset : Nat) (chars : List Char) :
    skipBracedName word offset (ofChars chars) =
      (CompiledScript.skipBracedName word offset chars).bytes id := by
  fun_induction CompiledScript.skipBracedName word offset chars with
  | case1 => rfl
  | case2 offset char rest _ close =>
    cases eq_of_beq close
    rfl
  | case3 offset char rest _ notClose ih =>
    obtain ⟨lead, more, encoded, spelled⟩ := exists_ofChars_cons char rest
    rw [encoded, skipBracedName, spelled.eq '}' (by decide), if_neg notClose,
      skipBracedName_continuation spelled.continues, Nat.add_assoc, Nat.add_comm 1, spelled.size]
    exact ih

theorem skipIndex_continuation (skip : Skip) {more : Bytes}
    (continues : ∀ byte ∈ more, isContinuation byte = true) (depth offset : Nat) (bytes : Bytes) :
    skipIndex skip depth offset (more ++ bytes) =
      skipIndex skip depth (offset + more.length) bytes := by
  refine steps_over_continuation (fun byte first offset bytes => ?_) continues offset bytes
  have paren := kind_of_continuation (ascii_eq '(' (by decide)) first
  have close := kind_of_continuation (ascii_eq ')' (by decide)) first
  have bracket := kind_of_continuation (ascii_eq '[' (by decide)) first
  have backslash := kind_of_continuation (ascii_eq '\\' (by decide)) first
  rw [skipIndex, paren, close, bracket, backslash]
  rfl

theorem skipIndex_ofChars {inner : Substitution} (moves : inner.MovesOn) {skip : Skip}
    {bound : Nat} (agrees : Agrees inner skip bound) {depth offset : Nat} {chars : List Char}
    (opened : 0 < depth) (short : chars.length ≤ bound) :
    skipIndex skip depth offset (ofChars chars) =
      .ok ((CompiledScript.skipIndex inner depth offset chars).bytes id) := by
  fun_induction CompiledScript.skipIndex inner depth offset chars with
  | case1 =>
    rw [ofChars_nil, skipIndex]
    rfl
  | case2 depth offset rest ih =>
    obtain ⟨byte, same, encoded⟩ := ofChars_ascii '(' (by decide) rest
    rw [List.length_cons] at short
    rw [encoded, skipIndex, same, ← ih (by omega) (by omega)]
    rfl
  | case3 depth offset rest last =>
    obtain ⟨byte, same, encoded⟩ := ofChars_ascii ')' (by decide) rest
    rw [encoded, skipIndex, same]
    have one : depth = 1 := by omega
    subst one
    rfl
  | case4 depth offset rest more ih =>
    obtain ⟨byte, same, encoded⟩ := ofChars_ascii ')' (by decide) rest
    rw [List.length_cons] at short
    rw [encoded, skipIndex, same, ← ih (by omega) (by omega)]
    have zero : depth ≠ 0 := by omega
    have one : depth ≠ 1 := by omega
    simp [zero, one]
  | case5 depth offset rest skipped error failed =>
    obtain ⟨byte, same, encoded⟩ := ofChars_ascii '[' (by decide) rest
    rw [List.length_cons] at short
    have ran : skip offset ⟨offset + 1, ofChars rest⟩ = .ok (skipped.bytes id) :=
      agrees offset ⟨offset + 1, rest⟩ (by simp only; omega)
    rw [encoded, skipIndex, same, ran]
    simp [Parsed.bytes, failed, Except.map, bind, Except.bind]
    rfl
  | case6 depth offset rest skipped done ih =>
    obtain ⟨byte, same, encoded⟩ := ofChars_ascii '[' (by decide) rest
    rw [List.length_cons] at short
    have ran : skip offset ⟨offset + 1, ofChars rest⟩ = .ok (skipped.bytes id) :=
      agrees offset ⟨offset + 1, rest⟩ (by simp only; omega)
    have shorter : skipped.cursor.rest.length ≤ rest.length :=
      inner.length_le offset ⟨offset + 1, rest⟩
    have fewer : octets skipped.cursor.rest ≤ octets rest :=
      octets_le_of_suffix (moves offset ⟨offset + 1, rest⟩).suffix
    have further : octets skipped.cursor.rest < octets rest + 1 := by omega
    rw [encoded, skipIndex, same, ran, ← ih opened (by omega)]
    simp [Parsed.bytes, done, Except.map, bind, Except.bind, Cursor.bytes, further]
  | case7 depth offset char rest ih =>
    obtain ⟨more, behind, size, continues⟩ := exists_continuation char rest
    obtain ⟨byte, same, encoded⟩ := ofChars_ascii '\\' (by decide) (char :: rest)
    simp only [List.length_cons] at short
    rw [encoded, skipIndex, same, behind, ← ih opened (by omega), ← size]
    simp [skipIndex_continuation skip continues, Nat.add_assoc]
  | case8 depth offset char rest notOpen notClose notBracket notHidden ih =>
    rw [List.length_cons] at short
    obtain ⟨lead, more, encoded, spelled⟩ := exists_ofChars_cons char rest
    rw [encoded, skipIndex, spelled.eq '(' (by decide),
      spelled.eq ')' (by decide), spelled.eq '[' (by decide),
      spelled.eq '\\' (by decide), ← ih opened (by omega)]
    by_cases backslash : char = '\\'
    · cases rest with
      | cons next behind => exact absurd rfl (notHidden next behind backslash)
      | nil =>
        subst backslash
        obtain ⟨-, rfl⟩ := spelled.ascii (by decide)
        rfl
    · have open_ : (char == '(') = false := by simpa using notOpen
      have close : (char == ')') = false := by simpa using notClose
      have bracket : (char == '[') = false := by simpa using notBracket
      have hidden : (char == '\\') = false := by simpa using backslash
      rw [open_, close, bracket, hidden]
      simp [skipIndex_continuation skip spelled.continues, Nat.add_assoc, Nat.add_comm 1,
        spelled.size]

theorem skipVariable_ofChars {inner : Substitution} (moves : inner.MovesOn) {skip : Skip}
    {bound : Nat} (agrees : Agrees inner skip bound) (word offset : Nat) {chars : List Char}
    (short : chars.length ≤ bound) :
    skipVariable skip word offset (ofChars chars) =
      .ok ((CompiledScript.skipVariable inner word offset chars).bytes id) := by
  have leading := List.takeWhile_prefix (l := chars) isNameChar
  have named := List.all_takeWhile (l := chars) (p := isNameChar)
  have size : (ofChars (chars.takeWhile isNameChar)).length = (chars.takeWhile isNameChar).length := by
    rw [length_ofChars, octets_of_kind ascii_isNameChar named]
  unfold CompiledScript.skipVariable
  split
  · rename_i rest
    unfold skipVariable
    rw [letters_ascii (by decide)]
    simp only [pure, Except.pure]
    rw [← skipBracedName_ofChars]
    rfl
  · rename_i notBraced
    unfold skipVariable
    split
    · rename_i braced
      obtain ⟨rest, same, -⟩ := of_letters (by decide) braced
      exact absurd same (notBraced rest)
    · simp only [takeWhile_ofChars ascii_isNameChar, size,
        drop_ofChars ascii_isNameChar leading named]
      split
      · rename_i indexed
        obtain ⟨rest, same, -⟩ := of_letters (by decide) indexed
        obtain ⟨byte, open_, encoded⟩ := ofChars_ascii '(' (by decide) rest
        have fewer : rest.length ≤ bound := by
          have length := congrArg List.length same
          rw [List.length_drop, List.length_cons] at length
          omega
        simp only [same]
        rw [encoded, skipIndex, open_, CompiledScript.skipIndex]
        exact skipIndex_ofChars moves agrees (Nat.zero_lt_one) fewer
      · rename_i notIndexed
        split
        · rename_i rest indexed
          rw [indexed, letters_ascii (by decide)] at notIndexed
          exact absurd rfl (notIndexed _)
        · rfl

/-! ## Backslash sequences -/

theorem leadingDigits_ofChars {digit? : Char → Option Nat}
    (ascii : AsciiKind fun char => (digit? char).isSome) (count : Nat) (chars : List Char) :
    leadingDigits digit? count (ofChars chars) =
      ofChars (Backslash.leadingDigits digit? count chars) :=
  take_takeWhile_ofChars ascii count chars

/-- Behind leading digits the bytes go on as the characters do, and the digits may be cut out. -/
theorem behind_leadingDigits {digit? : Char → Option Nat}
    (ascii : AsciiKind fun char => (digit? char).isSome) (count : Nat) (chars : List Char) :
    let digits := Backslash.leadingDigits digit? count chars
    (ofChars digits).length = digits.length ∧ letters (ofChars digits) = digits ∧
      (ofChars chars).drop digits.length = ofChars (chars.drop digits.length) := by
  have leading := Backslash.prefix_leadingDigits digit? count chars
  have all := Backslash.all_leadingDigits digit? count chars
  refine ⟨?_, letters_ofChars ascii all, drop_ofChars ascii leading all⟩
  rw [length_ofChars, octets_of_kind ascii all]

theorem decodeHex_ofChars (kind : Char) (count offset : Nat) (chars : List Char) :
    decodeHex kind count offset (ofChars chars) =
      .ok (ofChars (Backslash.decodeHex kind count offset chars).1,
        (Backslash.decodeHex kind count offset chars).2.bytes) := by
  obtain ⟨size, same, behind⟩ := behind_leadingDigits ascii_hexDigit count chars
  have all := Backslash.all_leadingDigits Backslash.hexDigit? count chars
  obtain ⟨tail, split⟩ := Backslash.prefix_leadingDigits Backslash.hexDigit? count chars
  have cutOut : slice ⟨offset, ofChars chars⟩
      ⟨offset + (Backslash.leadingDigits Backslash.hexDigit? count chars).length,
        ofChars (chars.drop (Backslash.leadingDigits Backslash.hexDigit? count chars).length)⟩ =
      .ok (ofChars (Backslash.leadingDigits Backslash.hexDigit? count chars)) := by
    refine slice_bytes ⟨offset, chars⟩ ⟨_, _⟩ ?_ ?_
    · exact (List.prefix_iff_eq_append.mp ⟨tail, split⟩).symm
    · rw [octets_of_kind ascii_hexDigit all]
  unfold decodeHex
  simp only [leadingDigits_ofChars ascii_hexDigit, size, behind, cutOut, bind, Except.bind, same]
  rfl

theorem decode_ofChars (offset : Nat) (chars : List Char) :
    decode offset (ofChars chars) =
      .ok (ofChars (Backslash.decode offset chars).1, (Backslash.decode offset chars).2.bytes) := by
  cases chars with
  | nil => rfl
  | cons char rest =>
    obtain ⟨lead, more, encoded, spelled⟩ := exists_ofChars_cons char rest
    have isChar {other : Char} (ascii : other.toNat < 128) (same : letter lead = other) :
        char = other := by
      have both := spelled.eq _ ascii
      rw [same, beq_self_eq_true] at both
      exact eq_of_beq both.symm
    unfold Backslash.decode
    simp only
    split
    case h_8 =>
      have leading := List.takeWhile_prefix (l := rest) Backslash.isIndent
      have all := List.all_takeWhile (l := rest) (p := Backslash.isIndent)
      obtain ⟨byte, same, encoded⟩ := ofChars_ascii '\n' (by decide) rest
      rw [encoded, decode]
      simp only [same, takeWhile_ofChars ascii_isIndent, length_ofChars,
        octets_of_kind ascii_isIndent all, drop_ofChars ascii_isIndent leading all]
      rfl
    case h_9 => exact decodeHex_ofChars 'x' 2 _ rest
    case h_10 => exact decodeHex_ofChars 'u' 4 _ rest
    case h_11 => exact decodeHex_ofChars 'U' 8 _ rest
    case h_12 =>
      rw [encoded, decode]
      simp only
      split
      case h_12 =>
        rw [spelled.kind ascii_octalDigit]
        by_cases octal : (Backslash.octalDigit? char).isSome
        · have small := ascii_octalDigit char octal
          obtain ⟨same, rfl⟩ := spelled.ascii small
          obtain ⟨size, digits, behind⟩ := behind_leadingDigits ascii_octalDigit 2 rest
          rw [if_pos octal, if_pos octal, same, List.nil_append,
            leadingDigits_ofChars ascii_octalDigit, digits, size, behind, utf8Size_of_ascii small]
          rfl
        · rw [if_neg octal, if_neg octal, ← encoded, nextChar_ofChars]
          rfl
      all_goals
        rename_i same
        exact absurd (isChar (by decide) same) (by assumption)
    all_goals rfl

/-! ## Words with substitutions -/

/-- A word that has been read further by a text. -/
theorem append_bytes (state : CompiledScript.WordState) (value : List Char) (cursor : Cursor) :
    (⟨.ok { state.bytes with value := state.bytes.value ++ ofChars value }, cursor.bytes⟩ :
        Found WordState) =
      Parsed.bytes CompiledScript.WordState.bytes
        ⟨.ok { state with value := value.reverse ++ state.value }, cursor⟩ := by
  simp [Parsed.bytes, CompiledScript.WordState.bytes, Except.map]

theorem notLiteral_bytes (skipped : Parsed Unit) (state : CompiledScript.WordState) :
    (skipped.bytes id).notLiteral state.bytes =
      Parsed.bytes CompiledScript.WordState.bytes
        ⟨skipped.outcome.map fun () => { state with literal := false }, skipped.cursor⟩ := by
  rcases skipped with ⟨error | ⟨⟨⟩⟩, cursor⟩ <;> rfl

theorem readElement_ofChars {inner : Substitution} (moves : inner.MovesOn) {skip : Skip}
    {bound : Nat} (agrees : Agrees inner skip bound) (word : Nat)
    (state : CompiledScript.WordState) (offset : Nat) {char : Char} {rest : List Char}
    {lead : UInt8} {more : Bytes} (short : rest.length < bound)
    (encoded : ofChars (char :: rest) = lead :: (more ++ ofChars rest))
    (spelled : Spelled char lead more) :
    readElement skip word state.bytes offset lead (more ++ ofChars rest) =
      .ok ((CompiledScript.readElement inner word state offset char rest).bytes
        CompiledScript.WordState.bytes) := by
  -- A dollar sign is one byte, so what follows it starts where the next character does.
  have dollar : (char == '$' && startsVariable (letters (more ++ ofChars rest))) =
      (char == '$' && startsVariable rest) := by
    by_cases same : char = '$'
    · obtain ⟨-, rfl⟩ := spelled.ascii (same ▸ by decide)
      rw [List.nil_append, startsVariable_letters]
    · rw [beq_eq_false_iff_ne.mpr same, Bool.false_and, Bool.false_and]
  unfold readElement CompiledScript.readElement
  rw [spelled.eq '\\' (by decide), spelled.eq '$' (by decide),
    spelled.eq '[' (by decide), dollar]
  by_cases backslash : (char == '\\') = true
  · have same : char = '\\' := eq_of_beq backslash
    obtain ⟨-, rfl⟩ := spelled.ascii (same ▸ by decide)
    rw [if_pos backslash, if_pos backslash, List.nil_append, decode_ofChars]
    exact congrArg Except.ok (append_bytes state _ _)
  · rw [if_neg backslash, if_neg backslash]
    by_cases variable_ : (char == '$' && startsVariable rest) = true
    · have same : char = '$' := eq_of_beq (Bool.and_eq_true_iff.mp variable_).1
      obtain ⟨-, rfl⟩ := spelled.ascii (same ▸ by decide)
      rw [if_pos variable_, if_pos variable_, List.nil_append,
        skipVariable_ofChars moves agrees word (offset + 1) (Nat.le_of_lt short)]
      exact congrArg Except.ok (notLiteral_bytes _ state)
    · rw [if_neg variable_, if_neg variable_]
      by_cases bracket : (char == '[') = true
      · have same : char = '[' := eq_of_beq bracket
        obtain ⟨-, rfl⟩ := spelled.ascii (same ▸ by decide)
        have ran : skip offset ⟨offset + 1, ofChars rest⟩ =
            .ok ((inner.skip offset ⟨offset + 1, rest⟩).bytes id) :=
          agrees offset ⟨offset + 1, rest⟩ short
        rw [if_pos bracket, if_pos bracket, List.nil_append, ran]
        exact congrArg Except.ok (notLiteral_bytes _ state)
      · rw [if_neg bracket, if_neg bracket, ← encoded, nextChar_ofChars]
        exact congrArg Except.ok (append_bytes state [char] ⟨_, rest⟩)

/-- Fewer bytes are left if fewer characters are. -/
theorem fewer_octets {start stop : Cursor} (leads : start.Leads stop)
    (shorter : stop.rest.length < start.rest.length) :
    stop.bytes.rest.length < octets start.rest := by
  have total := leads.total
  have further := leads.offset_lt shorter
  simp only [Cursor.bytes, length_ofChars]
  omega

theorem readElement_fewer {inner : Substitution} (moves : inner.MovesOn) (word : Nat)
    (state : CompiledScript.WordState) (offset : Nat) {char : Char} {rest : List Char}
    {lead : UInt8} {more : Bytes}
    (encoded : ofChars (char :: rest) = lead :: (more ++ ofChars rest)) :
    ((CompiledScript.readElement inner word state offset char rest).bytes
        CompiledScript.WordState.bytes).position.rest.length <
      (lead :: (more ++ ofChars rest)).length := by
  have shorter := readElement_length_le inner word state offset char rest
  rw [← encoded, length_ofChars]
  exact fewer_octets (leads_readElement moves word state offset char rest)
    (Nat.lt_succ_of_le shorter)

theorem readQuoted_ofChars {inner : Substitution} (moves : inner.MovesOn) {skip : Skip}
    {bound : Nat} (agrees : Agrees inner skip bound) (word : Nat)
    (state : CompiledScript.WordState) (offset : Nat) {chars : List Char}
    (short : chars.length ≤ bound) :
    readQuoted skip word state.bytes offset (ofChars chars) =
      .ok ((CompiledScript.readQuoted inner word state offset chars).bytes
        CompiledScript.WordState.bytes) := by
  fun_induction CompiledScript.readQuoted inner word state offset chars with
  | case1 =>
    rw [ofChars_nil, readQuoted]
    rfl
  | case2 state offset char rest quote =>
    cases eq_of_beq quote
    obtain ⟨byte, same, encoded⟩ := ofChars_ascii '"' (by decide) rest
    rw [encoded, readQuoted, same]
    simp only [Parsed.bytes, Cursor.bytes, encoded]
    rfl
  | case3 state offset char rest notQuote read error failed =>
    obtain ⟨lead, more, encoded, spelled⟩ := exists_ofChars_cons char rest
    have ran : readElement skip word state.bytes offset lead (more ++ ofChars rest) =
        .ok (read.bytes CompiledScript.WordState.bytes) :=
      readElement_ofChars moves agrees word state offset short encoded spelled
    rw [encoded, readQuoted, spelled.eq '"' (by decide), if_neg notQuote, ran]
    simp [Parsed.bytes, failed, Except.map, bind, Except.bind]
    rfl
  | case4 state offset char rest notQuote read next done ih =>
    obtain ⟨lead, more, encoded, spelled⟩ := exists_ofChars_cons char rest
    have ran : readElement skip word state.bytes offset lead (more ++ ofChars rest) =
        .ok (read.bytes CompiledScript.WordState.bytes) :=
      readElement_ofChars moves agrees word state offset short encoded spelled
    have shorter : read.cursor.rest.length ≤ rest.length :=
      readElement_length_le inner word state offset char rest
    have further : (read.bytes CompiledScript.WordState.bytes).position.rest.length <
        (lead :: (more ++ ofChars rest)).length :=
      readElement_fewer moves word state offset encoded
    rw [List.length_cons] at short
    rw [encoded, readQuoted, spelled.eq '"' (by decide), if_neg notQuote, ran,
      ← ih (by omega)]
    simp only [bind, Except.bind, Parsed.bytes, done, Except.map]
    exact dif_pos further

theorem readBare_ofChars {inner : Substitution} (moves : inner.MovesOn) {skip : Skip}
    {bound : Nat} (agrees : Agrees inner skip bound) {terminator : Option Char}
    (closing : Closing terminator) (word : Nat) (state : CompiledScript.WordState) (offset : Nat)
    {chars : List Char} (short : chars.length ≤ bound) :
    readBare skip terminator word state.bytes offset (ofChars chars) =
      .ok ((CompiledScript.readBare inner terminator word state offset chars).bytes
        CompiledScript.WordState.bytes) := by
  fun_induction CompiledScript.readBare inner terminator word state offset chars with
  | case1 state offset chars ended =>
    rw [readBare.eq_def, isWordEnd_letters closing, if_pos ended]
    rfl
  | case2 state offset inside => exact absurd rfl inside
  | case3 state offset char rest read error failed inside =>
    obtain ⟨lead, more, encoded, spelled⟩ := exists_ofChars_cons char rest
    have ran : readElement skip word state.bytes offset lead (more ++ ofChars rest) =
        .ok (read.bytes CompiledScript.WordState.bytes) :=
      readElement_ofChars moves agrees word state offset short encoded spelled
    rw [readBare.eq_def, isWordEnd_letters closing, if_neg inside, encoded]
    simp only [ran, Parsed.bytes, failed, Except.map, bind, Except.bind]
    rfl
  | case4 state offset char rest read next done inside ih =>
    obtain ⟨lead, more, encoded, spelled⟩ := exists_ofChars_cons char rest
    have ran : readElement skip word state.bytes offset lead (more ++ ofChars rest) =
        .ok (read.bytes CompiledScript.WordState.bytes) :=
      readElement_ofChars moves agrees word state offset short encoded spelled
    have shorter : read.cursor.rest.length ≤ rest.length :=
      readElement_length_le inner word state offset char rest
    have further : (read.bytes CompiledScript.WordState.bytes).position.rest.length <
        (lead :: (more ++ ofChars rest)).length :=
      readElement_fewer moves word state offset encoded
    rw [List.length_cons] at short
    rw [readBare.eq_def, isWordEnd_letters closing, if_neg inside, encoded, ← ih (by omega)]
    simp only [ran, bind, Except.bind, Parsed.bytes, done, Except.map]
    exact dif_pos further

/-! ## Braced words -/

theorem readBraced_continuation {more : Bytes}
    (continues : ∀ byte ∈ more, isContinuation byte = true) (word depth offset : Nat)
    (bytes : Bytes) :
    readBraced word depth offset (more ++ bytes) =
      readBraced word depth (offset + more.length) bytes := by
  refine steps_over_continuation (fun byte first offset bytes => ?_) continues offset bytes
  have backslash := kind_of_continuation (ascii_eq '\\' (by decide)) first
  have brace := kind_of_continuation (ascii_eq '{' (by decide)) first
  have close := kind_of_continuation (ascii_eq '}' (by decide)) first
  rw [readBraced, backslash, brace, close]
  rfl

/-- The closing brace stands one byte in front of where a braced word has been read to. -/
def closingBrace (read : Parsed (List Char)) : Found Position :=
  ⟨read.outcome.map fun _ => ⟨read.cursor.offset - 1, ofChars ('}' :: read.cursor.rest)⟩,
    read.cursor.bytes⟩

theorem readBraced_ofChars (word depth : Nat) (content : List Char) (offset : Nat)
    (chars : List Char) :
    readBraced word depth offset (ofChars chars) =
      closingBrace (CompiledScript.readBraced word depth content offset chars) := by
  fun_induction CompiledScript.readBraced word depth content offset chars with
  | case1 =>
    rw [ofChars_nil, readBraced]
    rfl
  | case2 depth content offset char rest ih =>
    obtain ⟨more, behind, size, continues⟩ := exists_continuation char rest
    obtain ⟨byte, same, encoded⟩ := ofChars_ascii '\\' (by decide) (char :: rest)
    rw [encoded, readBraced, same, behind, ← ih, ← size]
    simp [readBraced_continuation continues, Nat.add_assoc]
  | case3 depth content offset rest ih =>
    obtain ⟨byte, same, encoded⟩ := ofChars_ascii '{' (by decide) rest
    rw [encoded, readBraced, same, ← ih]
    rfl
  | case4 content offset rest =>
    obtain ⟨byte, same, encoded⟩ := ofChars_ascii '}' (by decide) rest
    rw [closingBrace, encoded, readBraced, same]
    rfl
  | case5 content offset rest depth ih =>
    obtain ⟨byte, same, encoded⟩ := ofChars_ascii '}' (by decide) rest
    rw [encoded, readBraced, same, ← ih]
    rfl
  | case6 depth content offset char rest notHidden notOpen notClose ih =>
    obtain ⟨lead, more, encoded, spelled⟩ := exists_ofChars_cons char rest
    rw [encoded, readBraced, spelled.eq '\\' (by decide),
      spelled.eq '{' (by decide), spelled.eq '}' (by decide), ← ih]
    by_cases backslash : char = '\\'
    · cases rest with
      | cons next behind => exact absurd rfl (notHidden next behind backslash)
      | nil =>
        subst backslash
        obtain ⟨-, rfl⟩ := spelled.ascii (by decide)
        rfl
    · have hidden : (char == '\\') = false := by simpa using backslash
      have brace : (char == '{') = false := by simpa using notOpen
      have close : (char == '}') = false := by simpa using notClose
      rw [hidden, brace, close]
      simp [readBraced_continuation spelled.continues, Nat.add_assoc, Nat.add_comm 1, spelled.size]

/-! ## Words -/

theorem endDelimited_ofChars {terminator : Option Char} (closing : Closing terminator)
    (after : Delimiter) (word : CompiledScript.Word) (cursor : Cursor) :
    endDelimited terminator after (.ok word.bytes) cursor.bytes =
      .ok ((CompiledScript.endDelimited terminator after word cursor).bytes Word.bytes) := by
  unfold endDelimited CompiledScript.endDelimited
  rw [show cursor.bytes.rest = ofChars cursor.rest from rfl, isWordEnd_letters closing]
  by_cases ended : isWordEnd terminator cursor.rest
  · rw [if_pos ended, if_pos ended]
    rfl
  · rw [if_neg ended, if_neg ended]
    rfl

theorem parseBraced_ofChars {terminator : Option Char} (closing : Closing terminator)
    (offset : Nat) (chars : List Char) :
    parseBraced terminator offset (ofChars chars) =
      .ok ((CompiledScript.parseBraced terminator offset chars).bytes Word.bytes) := by
  have ran := readBraced_ofChars offset 0 [] (offset + 1) chars
  unfold parseBraced CompiledScript.parseBraced
  simp only
  rw [ran, closingBrace]
  cases read : (CompiledScript.readBraced offset 0 [] (offset + 1) chars).outcome with
  | error error => rfl
  | ok content =>
    obtain ⟨inside, rfl, split, ends⟩ := readBraced_content read
    have stands : (CompiledScript.readBraced offset 0 [] (offset + 1) chars).cursor.offset - 1 =
        offset + 1 + octets inside := by
      rw [ends, Nat.add_sub_cancel]
    have cutOut := slice_bytes ⟨offset + 1, chars⟩ ⟨_, '}' :: _⟩ split stands
    simp only [Cursor.bytes] at cutOut
    simp only [Except.map, cutOut, collapse_ofChars, bind, Except.bind, List.append_nil,
      List.reverse_reverse]
    rw [← endDelimited_ofChars closing, Word.bytes, ofText_eq, String.toList_ofList]
    rfl

theorem valueOr_bytes (state : CompiledScript.WordState) {start stop : Cursor}
    (leads : start.Leads stop) :
    state.bytes.valueOr start.bytes stop.bytes = .ok (ofText (
      if state.literal then String.ofList state.value.reverse else textTo start stop)) := by
  unfold WordState.valueOr
  by_cases literal : state.literal
  · rw [if_pos literal, CompiledScript.WordState.bytes, if_pos literal, ofText_eq,
      String.toList_ofList]
    rfl
  · rw [if_neg literal, CompiledScript.WordState.bytes, if_neg literal]
    exact slice_textTo leads

theorem parseQuoted_ofChars {inner : Substitution} (moves : inner.MovesOn) {skip : Skip}
    {bound : Nat} (agrees : Agrees inner skip bound) {terminator : Option Char}
    (closing : Closing terminator) (offset : Nat) {chars : List Char}
    (short : chars.length ≤ bound) :
    parseQuoted skip terminator offset (ofChars chars) =
      .ok ((CompiledScript.parseQuoted inner terminator offset chars).bytes Word.bytes) := by
  have ran := readQuoted_ofChars moves agrees offset ⟨[], true⟩ (offset + 1) short
  have leads := leads_readQuoted moves offset ⟨[], true⟩ (offset + 1) chars
  have closed : ∀ state,
      (CompiledScript.readQuoted inner offset ⟨[], true⟩ (offset + 1) chars).outcome = .ok state →
      ∃ rest, (CompiledScript.readQuoted inner offset ⟨[], true⟩ (offset + 1) chars).cursor.rest =
        '"' :: rest :=
    fun _ => readQuoted_closed
  unfold parseQuoted CompiledScript.parseQuoted
  rw [show (⟨[], true⟩ : WordState) = CompiledScript.WordState.bytes ⟨[], true⟩ from rfl, ran]
  generalize CompiledScript.readQuoted inner offset ⟨[], true⟩ (offset + 1) chars = read at *
  rcases read with ⟨error | state, stop⟩
  · rfl
  · obtain ⟨behind, quote⟩ := closed state rfl
    have value := valueOr_bytes state leads
    have position : (⟨stop.bytes.offset + 1, stop.bytes.rest.drop 1⟩ : Position) =
        Cursor.bytes ⟨stop.offset + 1, stop.rest.drop 1⟩ := by
      rw [Cursor.bytes, Cursor.bytes, quote]
      rfl
    simp only [bind, Except.bind, Parsed.bytes, Except.map, position]
    rw [show (⟨offset + 1, ofChars chars⟩ : Position) = Cursor.bytes ⟨offset + 1, chars⟩ from rfl,
      value]
    exact endDelimited_ofChars closing .quote
      ⟨if state.literal then String.ofList state.value.reverse else textTo ⟨offset + 1, chars⟩ stop,
        state.literal, .quoted, offset⟩ ⟨stop.offset + 1, stop.rest.drop 1⟩

theorem parseBare_ofChars {inner : Substitution} (moves : inner.MovesOn) {skip : Skip}
    {bound : Nat} (agrees : Agrees inner skip bound) {terminator : Option Char}
    (closing : Closing terminator) (offset : Nat) {chars : List Char}
    (short : chars.length ≤ bound) :
    parseBare skip terminator offset (ofChars chars) =
      .ok ((CompiledScript.parseBare inner terminator offset chars).bytes Word.bytes) := by
  have ran := readBare_ofChars moves agrees closing offset ⟨[], true⟩ offset short
  have leads := leads_readBare moves terminator offset ⟨[], true⟩ offset chars
  unfold parseBare CompiledScript.parseBare
  rw [show (⟨[], true⟩ : WordState) = CompiledScript.WordState.bytes ⟨[], true⟩ from rfl, ran]
  generalize CompiledScript.readBare inner terminator offset ⟨[], true⟩ offset chars = read at *
  rcases read with ⟨error | state, stop⟩
  · rfl
  · have value := valueOr_bytes state leads
    simp only [bind, Except.bind, Parsed.bytes, Except.map]
    rw [show (⟨offset, ofChars chars⟩ : Position) = Cursor.bytes ⟨offset, chars⟩ from rfl, value]
    rfl

theorem expands_ofChars {terminator : Option Char} (closing : Closing terminator)
    (rest : List Char) :
    expands terminator (ofChars ('{' :: '*' :: '}' :: rest)) = !isWordEnd terminator rest := by
  have behind : (ofChars ('{' :: '*' :: '}' :: rest)).drop 3 = ofChars rest := rfl
  rw [expands, behind, isWordEnd_letters closing, letters_ascii (by decide),
    letters_ascii (by decide), letters_ascii (by decide)]
  rfl

theorem expands_eq_false (terminator : Option Char) {chars : List Char}
    (other : ∀ rest, chars = '{' :: '*' :: '}' :: rest → False) :
    expands terminator (ofChars chars) = false := by
  rw [Bool.eq_false_iff]
  intro holds
  have starts := eq_of_beq (Bool.and_eq_true_iff.mp holds).1
  have whole := List.take_append_drop 3 (letters (ofChars chars))
  rw [starts] at whole
  obtain ⟨first, rfl, further⟩ := of_letters (by decide) whole.symm
  obtain ⟨second, rfl, further⟩ := of_letters (by decide) further.symm
  obtain ⟨rest, rfl, -⟩ := of_letters (by decide) further.symm
  exact other rest rfl

theorem parseWord_ofChars {inner : Substitution} (moves : inner.MovesOn) {skip : Skip}
    {bound : Nat} (agrees : Agrees inner skip bound) {terminator : Option Char}
    (closing : Closing terminator) (offset : Nat) {chars : List Char}
    (short : chars.length ≤ bound) :
    parseWord skip terminator offset (ofChars chars) =
      .ok ((CompiledScript.parseWord inner terminator offset chars).bytes Word.bytes) := by
  fun_induction CompiledScript.parseWord inner terminator offset chars with
  | case1 offset rest ended =>
    rw [parseWord, expands_ofChars closing, ended, dif_neg (by decide), letters_ascii (by decide)]
    exact parseBraced_ofChars closing offset ('*' :: '}' :: rest)
  | case2 offset rest inside expanded error failed ih =>
    simp only [List.length_cons] at short
    have behind : (ofChars ('{' :: '*' :: '}' :: rest)).drop 3 = ofChars rest := rfl
    have ran : parseWord skip terminator (offset + 3) (ofChars rest) =
        .ok (expanded.bytes Word.bytes) := ih (by omega)
    rw [parseWord, expands_ofChars closing, dif_pos (by simpa using inside), behind, ran]
    simp only [bind, Except.bind, Parsed.bytes, failed, Except.map]
    rfl
  | case3 offset rest inside expanded word done ih =>
    simp only [List.length_cons] at short
    have behind : (ofChars ('{' :: '*' :: '}' :: rest)).drop 3 = ofChars rest := rfl
    have ran : parseWord skip terminator (offset + 3) (ofChars rest) =
        .ok (expanded.bytes Word.bytes) := ih (by omega)
    have leads : Leads ⟨offset, '{' :: '*' :: '}' :: rest⟩ expanded.cursor :=
      .step rfl (.step rfl (.step rfl (leads_parseWord moves terminator (offset + 3) rest)))
    have value := slice_textTo leads
    rw [parseWord, expands_ofChars closing, dif_pos (by simpa using inside), behind, ran]
    simp only [bind, Except.bind, Parsed.bytes, done, Except.map]
    rw [show (⟨offset, ofChars ('{' :: '*' :: '}' :: rest)⟩ : Position) =
      Cursor.bytes ⟨offset, '{' :: '*' :: '}' :: rest⟩ from rfl, value]
    rfl
  | case4 offset rest notExpanded =>
    have single : expands terminator (ofChars ('{' :: rest)) = false :=
      expands_eq_false terminator fun behind same => notExpanded behind (List.cons.inj same).2
    rw [parseWord, single, dif_neg (by decide), letters_ascii (by decide)]
    exact parseBraced_ofChars closing offset rest
  | case5 offset rest =>
    have single : expands terminator (ofChars ('"' :: rest)) = false :=
      expands_eq_false terminator fun behind same => absurd (List.cons.inj same).1 (by decide)
    rw [List.length_cons] at short
    rw [parseWord, single, dif_neg (by decide), letters_ascii (by decide)]
    exact parseQuoted_ofChars moves agrees closing offset (Nat.le_of_lt short)
  | case6 offset chars notExpanded notBraced notQuoted =>
    rw [parseWord, expands_eq_false terminator notExpanded, dif_neg (by decide)]
    split
    · rename_i starts
      obtain ⟨rest, same, -⟩ := of_letters (by decide) starts
      exact absurd same (notBraced rest)
    · rename_i starts
      obtain ⟨rest, same, -⟩ := of_letters (by decide) starts
      exact absurd same (notQuoted rest)
    · exact parseBare_ofChars moves agrees closing offset short

/-! ## Commands -/

theorem parseWords_ofChars {inner : Substitution} (moves : inner.MovesOn) {skip : Skip}
    {bound : Nat} (agrees : Agrees inner skip bound) {terminator : Option Char}
    (closing : Closing terminator) (words : List CompiledScript.Word) (offset : Nat)
    {chars : List Char} (short : chars.length ≤ bound) :
    parseWords skip terminator (words.map Word.bytes) offset (ofChars chars) =
      .ok ((CompiledScript.parseWords inner terminator words offset chars).bytes
        (List.map Word.bytes)) := by
  fun_induction CompiledScript.parseWords inner terminator words offset chars with
  | case1 words offset chars here ended =>
    rw [parseWords, skipBlanks_ofChars]
    simp only [Cursor.bytes, isCommandEnd_letters closing]
    rw [if_pos ended, ← List.map_reverse]
    rfl
  | case2 words offset chars here inside parsed error failed =>
    have blanks : here.rest.length ≤ chars.length := skipBlanks_length_le offset chars
    have ran : parseWord skip terminator here.offset (ofChars here.rest) =
        .ok (parsed.bytes Word.bytes) :=
      parseWord_ofChars moves agrees closing here.offset (by omega)
    rw [parseWords, skipBlanks_ofChars]
    simp only [Cursor.bytes, isCommandEnd_letters closing]
    rw [if_neg inside, ran]
    simp only [bind, Except.bind, Parsed.bytes, failed, Except.map]
    rfl
  | case3 words offset chars here inside parsed word done ih =>
    have blanks : here.rest.length ≤ chars.length := skipBlanks_length_le offset chars
    have ran : parseWord skip terminator here.offset (ofChars here.rest) =
        .ok (parsed.bytes Word.bytes) :=
      parseWord_ofChars moves agrees closing here.offset (by omega)
    have shorter : parsed.cursor.rest.length < here.rest.length :=
      (parseWord_length inner terminator here.offset here.rest).2
        (isWordEnd_skipBlanks terminator offset chars (by simpa using inside))
    have leads : Leads ⟨offset, chars⟩ parsed.cursor :=
      (leads_skipBlanks offset chars).trans (leads_parseWord moves terminator _ _)
    have further : parsed.cursor.bytes.rest.length < (ofChars chars).length := by
      rw [length_ofChars]
      exact fewer_octets leads (Nat.lt_of_lt_of_le shorter blanks)
    rw [parseWords, skipBlanks_ofChars]
    simp only [Cursor.bytes, isCommandEnd_letters closing]
    rw [if_neg inside, ran, ← ih (by omega)]
    simp only [bind, Except.bind, Parsed.bytes, done, Except.map]
    exact dif_pos further

theorem isAtEnd_bytes {terminator : Option Char} (closing : Closing terminator)
    (chars : List Char) :
    (ofChars chars = [] ∨ (letters (ofChars chars)).head? = terminator) ↔
      (chars = [] ∨ chars.head? = terminator) := by
  cases chars with
  | nil => simp
  | cons char rest =>
    obtain ⟨lead, more, encoded, spelled⟩ := exists_ofChars_cons char rest
    have same : some (letter lead) = terminator ↔ some char = terminator := by
      rw [← beq_iff_eq, spelled.kind closing.ascii, beq_iff_eq]
    rw [encoded, letters, List.map_cons, List.head?_cons, List.head?_cons, same]
    simp

theorem parseCommand_bytes {inner : Substitution} (moves : inner.MovesOn) {skip : Skip}
    {bound : Nat} (agrees : Agrees inner skip bound) {terminator : Option Char}
    (closing : Closing terminator) {cursor : Cursor} (short : cursor.rest.length ≤ bound) :
    parseCommand skip terminator cursor.bytes =
      .ok ((CompiledScript.parseCommand inner terminator cursor).bytes
        (Option.map Command.bytes)) := by
  have gap := skipGap_length_le terminator false cursor.offset cursor.rest
  have fewer : (Cursor.skipGap terminator false cursor.offset cursor.rest).rest.length ≤ bound :=
    Nat.le_trans gap short
  have ran := parseWords_ofChars moves agrees closing []
    (Cursor.skipGap terminator false cursor.offset cursor.rest).offset fewer
  unfold parseCommand CompiledScript.parseCommand
  rw [show cursor.bytes.rest = ofChars cursor.rest from rfl,
    show cursor.bytes.offset = cursor.offset from rfl, skipGap_ofChars closing]
  generalize Cursor.skipGap terminator false cursor.offset cursor.rest = here at *
  simp only [Cursor.bytes, isAtEnd_bytes closing]
  by_cases ended : here.rest = [] ∨ here.rest.head? = terminator
  · rw [if_pos ended, if_pos ended]
    rfl
  · rw [if_neg ended, if_neg ended]
    rw [List.map_nil] at ran
    rw [ran]
    simp only [bind, Except.bind, Parsed.bytes]
    cases (CompiledScript.parseWords inner terminator [] here.offset here.rest).outcome <;> rfl

/-! ## Substitutions -/

theorem skipScript_bytes {inner : Substitution} (moves : inner.MovesOn) {skip : Skip}
    {bound : Nat} (agrees : Agrees inner skip bound) (opening : Nat) {cursor : Cursor}
    (short : cursor.rest.length ≤ bound) :
    skipScript skip opening cursor.bytes =
      .ok ((CompiledScript.skipScript inner opening cursor).bytes id) := by
  have closing : Closing (some ']') := fun char same => (Option.some.inj same).symm
  fun_induction CompiledScript.skipScript inner opening cursor with
  | case1 cursor parsed error failed =>
    have ran : parseCommand skip (some ']') cursor.bytes =
        .ok (parsed.bytes (Option.map Command.bytes)) :=
      parseCommand_bytes moves agrees closing short
    rw [skipScript, ran]
    simp only [bind, Except.bind, Parsed.bytes, failed, Except.map]
    rfl
  | case2 cursor parsed command found ih =>
    have ran : parseCommand skip (some ']') cursor.bytes =
        .ok (parsed.bytes (Option.map Command.bytes)) :=
      parseCommand_bytes moves agrees closing short
    have length := parseCommand_length inner (some ']') cursor
    have shorter : parsed.cursor.rest.length < cursor.rest.length :=
      length.2 (by rw [show (CompiledScript.parseCommand inner (some ']') cursor).outcome = _ from found]
                   simp)
    have further : parsed.cursor.bytes.rest.length < cursor.bytes.rest.length := by
      rw [show cursor.bytes.rest.length = octets cursor.rest from length_ofChars _]
      exact fewer_octets (leads_parseCommand moves (some ']') cursor) shorter
    rw [skipScript, ran, ← ih (by omega)]
    simp only [bind, Except.bind, Parsed.bytes, found, Except.map, Option.map]
    exact dif_pos further
  | case3 cursor parsed ended rest stop =>
    have ran : parseCommand skip (some ']') cursor.bytes =
        .ok (parsed.bytes (Option.map Command.bytes)) :=
      parseCommand_bytes moves agrees closing short
    have behind : parsed.cursor.bytes.rest = ofChars (']' :: rest) := congrArg ofChars stop
    rw [skipScript, ran]
    simp only [bind, Except.bind, Parsed.bytes, ended, Except.map, Option.map, behind]
    rw [letters_ascii (by decide)]
    rfl
  | case4 cursor parsed ended notStop =>
    have ran : parseCommand skip (some ']') cursor.bytes =
        .ok (parsed.bytes (Option.map Command.bytes)) :=
      parseCommand_bytes moves agrees closing short
    rw [skipScript, ran]
    simp only [bind, Except.bind, Parsed.bytes, ended, Except.map, Option.map]
    split
    · rename_i starts
      obtain ⟨rest, same, -⟩ := of_letters (by decide) starts
      exact absurd same (notStop rest)
    · rfl

/-- As many levels of substitutions as there are characters are enough for both. -/
theorem agrees_within {levels depth bound : Nat} (characters : bound ≤ levels)
    (bytes : bound ≤ depth) : Agrees (.within levels) (within depth) bound := by
  induction bound generalizing levels depth with
  | zero => exact fun opening cursor short => absurd short (Nat.not_lt_zero _)
  | succ bound ih =>
    cases levels with
    | zero => exact absurd characters (Nat.not_succ_le_zero _)
    | succ levels =>
      cases depth with
      | zero => exact absurd bytes (Nat.not_succ_le_zero _)
      | succ depth =>
        have below := ih (Nat.le_of_succ_le_succ characters) (Nat.le_of_succ_le_succ bytes)
        exact fun opening cursor short => skipScript_bytes (Substitution.movesOn_within levels) below
          opening (Nat.le_of_lt_succ short)

/-! ## Scripts -/

/-- A call for the next command does with the bytes of a script what it does with its characters. -/
theorem nextCommand_bytes (cursor : Cursor) :
    nextCommand cursor.bytes =
      .ok ((CompiledScript.nextCommand cursor).bytes (Option.map Command.bytes)) := by
  have levels : cursor.rest.length ≤ cursor.bytes.rest.length := by
    rw [show cursor.bytes.rest.length = octets cursor.rest from length_ofChars _]
    exact length_le_octets cursor.rest
  have closing : Closing none := by
    intro char same
    cases same
  exact parseCommand_bytes (Substitution.movesOn_within _) (agrees_within (Nat.le_refl _) levels)
    closing (Nat.le_refl _)

end Bytewise

end CompiledScript
