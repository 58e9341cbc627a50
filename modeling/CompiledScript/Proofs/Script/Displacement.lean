import CompiledScript.Proofs.Script.Movement

/-!
# Scripts that stand further on

The parser never looks at an offset, it only counts.  So the same characters further on
in a text give the same words, commands and errors, each further on by the same
distance.

How deep substitutions may nest depends on the number of characters that are left, and
any number that is large enough leads to the same result.  Both facts are of one kind:
a way to skip substitutions may be replaced by another one that does the same, further
on, wherever there are few enough characters left.
-/

set_option autoImplicit false

namespace CompiledScript

open Cursor

/-! ## The same further on -/

def Cursor.displace (distance : Nat) (cursor : Cursor) : Cursor :=
  ⟨cursor.offset + distance, cursor.rest⟩

def Word.displace (distance : Nat) (word : Word) : Word :=
  { word with offset := word.offset + distance }

def Command.displace (distance : Nat) (command : Command) : Command :=
  ⟨command.words.map (Word.displace distance), command.offset + distance⟩

def ParseError.displace (distance : Nat) : ParseError → ParseError
  | missingCloseBrace offset => missingCloseBrace (offset + distance)
  | missingCloseQuote offset => missingCloseQuote (offset + distance)
  | missingCloseBracket offset => missingCloseBracket (offset + distance)
  | extraCharacters after offset => extraCharacters after (offset + distance)

/-- What was found, given how the parts of it that have an offset move. -/
def displaced {α : Type} (move : α → α) (distance : Nat) :
    Except ParseError α → Except ParseError α
  | .error error => .error (error.displace distance)
  | .ok value => .ok (move value)

def Parsed.displace {α : Type} (move : α → α) (distance : Nat) (parsed : Parsed α) : Parsed α :=
  ⟨displaced move distance parsed.outcome, parsed.cursor.displace distance⟩

variable {distance : Nat}

@[simp] theorem Cursor.displace_mk (offset : Nat) (chars : List Char) :
    Cursor.displace distance ⟨offset, chars⟩ = ⟨offset + distance, chars⟩ := rfl

@[simp] theorem Cursor.displace_offset (cursor : Cursor) :
    (cursor.displace distance).offset = cursor.offset + distance := rfl

@[simp] theorem Cursor.displace_rest (cursor : Cursor) :
    (cursor.displace distance).rest = cursor.rest := rfl

namespace Parsed

variable {α : Type} {move : α → α} {parsed : Parsed α}

@[simp] theorem displace_cursor (move : α → α) (parsed : Parsed α) :
    (parsed.displace move distance).cursor = parsed.cursor.displace distance := rfl

@[simp] theorem displace_mk_ok (move : α → α) (value : α) (cursor : Cursor) :
    Parsed.displace move distance ⟨.ok value, cursor⟩ =
      ⟨.ok (move value), cursor.displace distance⟩ := rfl

@[simp] theorem displace_mk_error (move : α → α) (error : ParseError) (cursor : Cursor) :
    Parsed.displace move distance ⟨.error error, cursor⟩ =
      ⟨.error (error.displace distance), cursor.displace distance⟩ := rfl

theorem displace_map {β : Type} (make : α → β) (parsed : Parsed α) :
    (⟨(parsed.displace id distance).outcome.map make, parsed.cursor.displace distance⟩ : Parsed β) =
      Parsed.displace id distance ⟨parsed.outcome.map make, parsed.cursor⟩ := by
  obtain ⟨outcome, cursor⟩ := parsed
  cases outcome <;> rfl

theorem displace_error {error : ParseError} (failed : parsed.outcome = .error error) :
    (parsed.displace move distance).outcome = .error (error.displace distance) := by
  rw [displace, failed]
  rfl

theorem displace_ok {value : α} (done : parsed.outcome = .ok value) :
    (parsed.displace move distance).outcome = .ok (move value) := by
  rw [displace, done]
  rfl

end Parsed

/-! ## Gaps -/

theorem Cursor.skipBlanks_displace (offset : Nat) (chars : List Char) :
    skipBlanks (offset + distance) chars = (skipBlanks offset chars).displace distance := by
  fun_induction skipBlanks offset chars with
  | case1 => rfl
  | case2 offset rest ih => rw [skipBlanks, Nat.add_right_comm, ih]
  | case3 offset char rest other blank ih =>
    rw [skipBlanks, if_pos blank, Nat.add_right_comm, ih]
    exact other
  | case4 offset char rest other solid =>
    rw [skipBlanks, if_neg solid]
    · rfl
    · exact other

theorem Cursor.skipGap_displace (terminator : Option Char) (inComment : Bool) (offset : Nat)
    (chars : List Char) :
    skipGap terminator inComment (offset + distance) chars =
      (skipGap terminator inComment offset chars).displace distance := by
  fun_induction skipGap terminator inComment offset chars <;>
    simp_all [skipGap, Nat.add_right_comm _ distance]

/-! ## Substitutions and variables -/

/-- The second way to skip substitutions does what the first does, further on, if fewer characters
are left than `bound`. -/
def Substitution.Displaced (distance bound : Nat) (inner outer : Substitution) : Prop :=
  ∀ (opening : Nat) (cursor : Cursor), cursor.rest.length < bound →
    outer.skip (opening + distance) (cursor.displace distance) =
      (inner.skip opening cursor).displace id distance

/-- What follows an opening bracket is short enough if the bracket with it is. -/
theorem Substitution.Displaced.skip {inner outer : Substitution} {bound : Nat}
    (same : inner.Displaced distance bound outer) (opening offset : Nat) {char : Char}
    {rest : List Char} (short : (char :: rest).length ≤ bound) :
    outer.skip (opening + distance) ⟨offset + distance, rest⟩ =
      (inner.skip opening ⟨offset, rest⟩).displace id distance :=
  same opening ⟨offset, rest⟩ short

theorem skipBracedName_displace (word offset : Nat) (chars : List Char) :
    skipBracedName (word + distance) (offset + distance) chars =
      (skipBracedName word offset chars).displace id distance := by
  fun_induction skipBracedName word offset chars with
  | case1 => rfl
  | case2 offset char rest next closing =>
    rw [skipBracedName, if_pos closing, Nat.add_right_comm]
    rfl
  | case3 offset char rest next other ih =>
    rw [skipBracedName, if_neg other, Nat.add_right_comm]
    exact ih

variable {inner outer : Substitution} {bound : Nat}

theorem skipIndex_displace (same : inner.Displaced distance bound outer) (depth offset : Nat)
    {chars : List Char} (short : chars.length ≤ bound) :
    skipIndex outer depth (offset + distance) chars =
      (skipIndex inner depth offset chars).displace id distance := by
  fun_induction skipIndex inner depth offset chars with
  | case1 =>
    rw [skipIndex]
    rfl
  | case2 depth offset rest ih =>
    rw [List.length_cons] at short
    rw [skipIndex, Nat.add_right_comm, ih (by omega)]
  | case3 depth offset rest last =>
    rw [skipIndex, if_pos last, Nat.add_right_comm]
    rfl
  | case4 depth offset rest further ih =>
    rw [List.length_cons] at short
    rw [skipIndex, if_neg further, Nat.add_right_comm, ih (by omega)]
  | case5 depth offset rest skipped error failed =>
    have moved : outer.skip (offset + distance) ⟨offset + 1 + distance, rest⟩ =
        skipped.displace id distance := same.skip offset (offset + 1) short
    rw [skipIndex]
    simp only [Nat.add_right_comm _ distance, moved, Parsed.displace_error failed]
  | case6 depth offset rest skipped done ih =>
    have moved : outer.skip (offset + distance) ⟨offset + 1 + distance, rest⟩ =
        skipped.displace id distance := same.skip offset (offset + 1) short
    have shorter : skipped.cursor.rest.length ≤ rest.length :=
      inner.length_le offset ⟨offset + 1, rest⟩
    rw [List.length_cons] at short
    rw [skipIndex]
    simp only [Nat.add_right_comm _ distance, moved, Parsed.displace_ok done]
    exact ih (by omega)
  | case7 depth offset char rest ih =>
    simp only [List.length_cons] at short
    rw [skipIndex, ← ih (by omega)]
    congr 1
    omega
  | case8 depth offset char rest notOpening notClosing notBracket notHidden ih =>
    rw [List.length_cons] at short
    rw [skipIndex, Nat.add_right_comm, ih (by omega)] <;> assumption

theorem skipVariable_displace (same : inner.Displaced distance bound outer) (word offset : Nat)
    {chars : List Char} (short : chars.length ≤ bound) :
    skipVariable outer (word + distance) (offset + distance) chars =
      (skipVariable inner word offset chars).displace id distance := by
  unfold skipVariable
  split
  · rw [Nat.add_right_comm]
    exact skipBracedName_displace word _ _
  · simp only [Nat.add_right_comm _ distance]
    split
    · rename_i behind
      apply skipIndex_displace same
      rw [List.length_drop]
      omega
    · rfl

/-! ## Words with substitutions -/

theorem Backslash.decode_displace (offset : Nat) (chars : List Char) :
    decode (offset + distance) chars =
      ((decode offset chars).1, (decode offset chars).2.displace distance) := by
  cases chars with
  | nil => rfl
  | cons char rest =>
    rw [decode_cons, decode_cons, displace_mk, Nat.add_right_comm offset,
      Nat.add_right_comm (offset + char.utf8Size)]

theorem readElement_displace (same : inner.Displaced distance bound outer) (word : Nat)
    (state : WordState) (offset : Nat) {char : Char} {rest : List Char}
    (short : (char :: rest).length ≤ bound) :
    readElement outer (word + distance) state (offset + distance) char rest =
      (readElement inner word state offset char rest).displace id distance := by
  have fewer : rest.length ≤ bound := Nat.le_of_succ_le short
  unfold readElement
  split
  · rw [Nat.add_right_comm, Backslash.decode_displace]
    rfl
  · split
    · rw [Nat.add_right_comm, skipVariable_displace same word (offset + 1) fewer]
      exact Parsed.displace_map _ _
    · split
      · rw [Nat.add_right_comm, same.skip offset (offset + 1) short]
        exact Parsed.displace_map _ _
      · rw [Nat.add_right_comm]
        rfl

theorem readQuoted_displace (same : inner.Displaced distance bound outer) (word : Nat)
    (state : WordState) (offset : Nat) {chars : List Char} (short : chars.length ≤ bound) :
    readQuoted outer (word + distance) state (offset + distance) chars =
      (readQuoted inner word state offset chars).displace id distance := by
  fun_induction readQuoted inner word state offset chars with
  | case1 =>
    rw [readQuoted]
    rfl
  | case2 state offset char rest closing =>
    rw [readQuoted, if_pos closing]
    rfl
  | case3 state offset char rest other read error failed =>
    have moved : readElement outer (word + distance) state (offset + distance) char rest =
        read.displace id distance := readElement_displace same word state offset short
    rw [readQuoted, if_neg other]
    simp only [moved, Parsed.displace_error failed]
    rfl
  | case4 state offset char rest other read next done ih =>
    have moved : readElement outer (word + distance) state (offset + distance) char rest =
        read.displace id distance := readElement_displace same word state offset short
    have shorter : read.cursor.rest.length ≤ rest.length :=
      readElement_length_le inner word state offset char rest
    rw [List.length_cons] at short
    rw [readQuoted, if_neg other]
    simp only [moved, Parsed.displace_ok done]
    exact ih (by omega)

theorem readBare_displace (same : inner.Displaced distance bound outer)
    (terminator : Option Char) (word : Nat) (state : WordState) (offset : Nat)
    {chars : List Char} (short : chars.length ≤ bound) :
    readBare outer terminator (word + distance) state (offset + distance) chars =
      (readBare inner terminator word state offset chars).displace id distance := by
  fun_induction readBare inner terminator word state offset chars with
  | case1 state offset chars ended =>
    rw [readBare.eq_def, if_pos ended]
    rfl
  | case2 => simp_all [isWordEnd]
  | case3 state offset char rest read error failed inside =>
    have moved : readElement outer (word + distance) state (offset + distance) char rest =
        read.displace id distance := readElement_displace same word state offset short
    rw [readBare, if_neg inside]
    simp only [moved, Parsed.displace_error failed]
    rfl
  | case4 state offset char rest read next done inside ih =>
    have moved : readElement outer (word + distance) state (offset + distance) char rest =
        read.displace id distance := readElement_displace same word state offset short
    have shorter : read.cursor.rest.length ≤ rest.length :=
      readElement_length_le inner word state offset char rest
    rw [List.length_cons] at short
    rw [readBare, if_neg inside]
    simp only [moved, Parsed.displace_ok done]
    exact ih (by omega)

/-! ## Words -/

theorem readBraced_displace (distance word depth : Nat) (content : List Char) (offset : Nat)
    (chars : List Char) :
    readBraced (word + distance) depth content (offset + distance) chars =
      (readBraced word depth content offset chars).displace id distance := by
  fun_induction readBraced word depth content offset chars <;>
    simp_all [readBraced, Nat.add_right_comm _ distance, ParseError.displace]

theorem textTo_displace (distance : Nat) (start stop : Cursor) :
    textTo (start.displace distance) (stop.displace distance) = textTo start stop := by
  rw [textTo, textTo]
  congr 2
  simp only [displace_offset]
  omega

theorem endDelimited_displace (terminator : Option Char) (after : Delimiter) (word : Word)
    (cursor : Cursor) :
    endDelimited terminator after (word.displace distance) (cursor.displace distance) =
      (endDelimited terminator after word cursor).displace (Word.displace distance) distance := by
  by_cases ended : isWordEnd terminator cursor.rest = true
  · rw [endDelimited, endDelimited, if_pos ended, displace_rest, if_pos ended]
    rfl
  · rw [endDelimited, endDelimited, if_neg ended, displace_rest, if_neg ended]
    rfl

theorem parseBraced_displace (terminator : Option Char) (offset : Nat) (chars : List Char) :
    parseBraced terminator (offset + distance) chars =
      (parseBraced terminator offset chars).displace (Word.displace distance) distance := by
  have read := readBraced_displace distance offset 0 [] (offset + 1) chars
  unfold parseBraced
  rw [Nat.add_right_comm, read]
  generalize readBraced offset 0 [] (offset + 1) chars = read
  obtain ⟨outcome, cursor⟩ := read
  cases outcome with
  | error error => rfl
  | ok content =>
    exact endDelimited_displace terminator .brace
      ⟨String.ofList (Backslash.collapse content.reverse), true, .braced, offset⟩ cursor

theorem parseQuoted_displace (same : inner.Displaced distance bound outer)
    (terminator : Option Char) (offset : Nat) {chars : List Char} (short : chars.length ≤ bound) :
    parseQuoted outer terminator (offset + distance) chars =
      (parseQuoted inner terminator offset chars).displace (Word.displace distance) distance := by
  have read := readQuoted_displace same offset ⟨[], true⟩ (offset + 1) short
  unfold parseQuoted
  rw [Nat.add_right_comm, read]
  generalize readQuoted inner offset ⟨[], true⟩ (offset + 1) chars = read
  obtain ⟨outcome, cursor⟩ := read
  cases outcome with
  | error error => rfl
  | ok state =>
    have text := textTo_displace distance ⟨offset + 1, chars⟩ cursor
    simp only [Parsed.displace_mk_ok, id_eq, displace_offset, displace_rest, displace_mk] at text ⊢
    rw [text, Nat.add_right_comm]
    exact endDelimited_displace terminator .quote
      ⟨if state.literal then String.ofList state.value.reverse
        else textTo ⟨offset + 1, chars⟩ cursor, state.literal, .quoted, offset⟩
      ⟨cursor.offset + 1, cursor.rest.drop 1⟩

theorem parseBare_displace (same : inner.Displaced distance bound outer)
    (terminator : Option Char) (offset : Nat) {chars : List Char} (short : chars.length ≤ bound) :
    parseBare outer terminator (offset + distance) chars =
      (parseBare inner terminator offset chars).displace (Word.displace distance) distance := by
  have read := readBare_displace same terminator offset ⟨[], true⟩ offset short
  unfold parseBare
  rw [read]
  generalize readBare inner terminator offset ⟨[], true⟩ offset chars = read
  obtain ⟨outcome, cursor⟩ := read
  cases outcome with
  | error error => rfl
  | ok state =>
    have text := textTo_displace distance ⟨offset, chars⟩ cursor
    simp only [Parsed.displace_mk_ok, id_eq, displace_mk] at text ⊢
    rw [text]
    rfl

theorem parseWord_displace (same : inner.Displaced distance bound outer)
    (terminator : Option Char) (offset : Nat) {chars : List Char} (short : chars.length ≤ bound) :
    parseWord outer terminator (offset + distance) chars =
      (parseWord inner terminator offset chars).displace (Word.displace distance) distance := by
  fun_induction parseWord inner terminator offset chars with
  | case1 offset rest ended =>
    rw [parseWord, if_pos ended]
    exact parseBraced_displace ..
  | case2 offset rest inside expanded error failed ih =>
    simp only [List.length_cons] at short
    have moved : parseWord outer terminator (offset + distance + 3) rest =
        expanded.displace (Word.displace distance) distance := by
      rw [Nat.add_right_comm]
      exact ih (by omega)
    rw [parseWord, if_neg inside]
    simp only [moved, Parsed.displace_error failed]
    rfl
  | case3 offset rest inside expanded word done ih =>
    simp only [List.length_cons] at short
    have moved : parseWord outer terminator (offset + distance + 3) rest =
        expanded.displace (Word.displace distance) distance := by
      rw [Nat.add_right_comm]
      exact ih (by omega)
    have text := textTo_displace distance ⟨offset, '{' :: '*' :: '}' :: rest⟩
      expanded.cursor
    rw [displace_mk] at text
    rw [parseWord, if_neg inside]
    simp only [moved, Parsed.displace_ok done, Parsed.displace_cursor, text]
    rfl
  | case4 offset rest notExpanded =>
    rw [parseWord]
    · exact parseBraced_displace ..
    · exact notExpanded
  | case5 offset rest =>
    rw [List.length_cons] at short
    rw [parseWord]
    exact parseQuoted_displace same terminator offset (Nat.le_of_lt short)
  | case6 offset chars notExpanded notBraced notQuoted =>
    rw [parseWord]
    · exact parseBare_displace same terminator offset short
    all_goals assumption

/-! ## Commands -/

theorem parseWords_displace (same : inner.Displaced distance bound outer)
    (terminator : Option Char) (words : List Word) (offset : Nat) {chars : List Char}
    (short : chars.length ≤ bound) :
    parseWords outer terminator (words.map (Word.displace distance)) (offset + distance) chars =
      (parseWords inner terminator words offset chars).displace
        (List.map (Word.displace distance)) distance := by
  fun_induction parseWords inner terminator words offset chars with
  | case1 words offset chars here ended =>
    rw [parseWords, skipBlanks_displace, displace_rest, dif_pos ended, ← List.map_reverse]
    rfl
  | case2 words offset chars here inside parsed error failed =>
    have blanks : here.rest.length ≤ chars.length := skipBlanks_length_le offset chars
    have moved : parseWord outer terminator ((skipBlanks offset chars).offset + distance)
        (skipBlanks offset chars).rest = parsed.displace (Word.displace distance) distance :=
      parseWord_displace same terminator here.offset (Nat.le_trans blanks short)
    rw [parseWords, skipBlanks_displace, displace_rest, dif_neg inside]
    simp only [displace_offset, moved, Parsed.displace_error failed]
    rfl
  | case3 words offset chars here inside parsed word done ih =>
    have blanks : here.rest.length ≤ chars.length := skipBlanks_length_le offset chars
    have moved : parseWord outer terminator ((skipBlanks offset chars).offset + distance)
        (skipBlanks offset chars).rest = parsed.displace (Word.displace distance) distance :=
      parseWord_displace same terminator here.offset (Nat.le_trans blanks short)
    have shorter : parsed.cursor.rest.length ≤ here.rest.length :=
      (parseWord_length inner terminator here.offset here.rest).1
    rw [parseWords, skipBlanks_displace, displace_rest, dif_neg inside]
    simp only [displace_offset, moved, Parsed.displace_ok done]
    exact ih (by omega)

theorem parseCommand_displace (same : inner.Displaced distance bound outer)
    (terminator : Option Char) {cursor : Cursor} (short : cursor.rest.length ≤ bound) :
    parseCommand outer terminator (cursor.displace distance) =
      (parseCommand inner terminator cursor).displace (Option.map (Command.displace distance))
        distance := by
  have gap := skipGap_length_le terminator false cursor.offset cursor.rest
  unfold parseCommand
  rw [displace_offset, displace_rest, skipGap_displace]
  generalize skipGap terminator false cursor.offset cursor.rest = here at gap
  have moved := parseWords_displace same terminator [] here.offset (Nat.le_trans gap short)
  rw [List.map_nil] at moved
  simp only [displace_rest, displace_offset, moved]
  by_cases ended : here.rest = [] ∨ here.rest.head? = terminator
  · rw [if_pos ended, if_pos ended]
    rfl
  · rw [if_neg ended, if_neg ended]
    generalize parseWords inner terminator [] here.offset here.rest = parsed
    obtain ⟨outcome, stop⟩ := parsed
    cases outcome <;> rfl

/-! ## Substitutions -/

theorem skipScript_of_error {opening : Nat} {cursor : Cursor} {error : ParseError}
    (failed : (parseCommand inner (some ']') cursor).outcome = .error error) :
    skipScript inner opening cursor =
      ⟨.error error, (parseCommand inner (some ']') cursor).cursor⟩ := by
  rw [skipScript]
  split <;> simp_all

theorem skipScript_of_command {opening : Nat} {cursor : Cursor} {command : Command}
    (found : (parseCommand inner (some ']') cursor).outcome = .ok (some command)) :
    skipScript inner opening cursor =
      skipScript inner opening (parseCommand inner (some ']') cursor).cursor := by
  rw [skipScript]
  split <;> simp_all

theorem skipScript_closed {opening : Nat} {cursor : Cursor} {rest : List Char}
    (ended : (parseCommand inner (some ']') cursor).outcome = .ok none)
    (closed : (parseCommand inner (some ']') cursor).cursor.rest = ']' :: rest) :
    skipScript inner opening cursor =
      ⟨.ok (), ⟨(parseCommand inner (some ']') cursor).cursor.offset + 1, rest⟩⟩ := by
  rw [skipScript]
  split <;> simp_all

theorem skipScript_unclosed {opening : Nat} {cursor : Cursor}
    (ended : (parseCommand inner (some ']') cursor).outcome = .ok none)
    (unclosed : ∀ rest, (parseCommand inner (some ']') cursor).cursor.rest = ']' :: rest → False) :
    skipScript inner opening cursor =
      ⟨.error (.missingCloseBracket opening), (parseCommand inner (some ']') cursor).cursor⟩ := by
  rw [skipScript]
  split <;> simp_all

theorem skipScript_displace (same : inner.Displaced distance bound outer) (opening : Nat)
    {cursor : Cursor} (short : cursor.rest.length ≤ bound) :
    skipScript outer (opening + distance) (cursor.displace distance) =
      (skipScript inner opening cursor).displace id distance := by
  fun_induction skipScript inner opening cursor with
  | case1 cursor parsed error failed =>
    have moved : parseCommand outer (some ']') (cursor.displace distance) =
        parsed.displace (Option.map (Command.displace distance)) distance :=
      parseCommand_displace same _ short
    have outcome : (parseCommand outer (some ']') (cursor.displace distance)).outcome =
        .error (error.displace distance) := by
      rw [moved, Parsed.displace_error failed]
    rw [skipScript_of_error outcome, moved]
    rfl
  | case2 cursor parsed command found ih =>
    have moved : parseCommand outer (some ']') (cursor.displace distance) =
        parsed.displace (Option.map (Command.displace distance)) distance :=
      parseCommand_displace same _ short
    have outcome : (parseCommand outer (some ']') (cursor.displace distance)).outcome =
        .ok (some (command.displace distance)) := by
      rw [moved, Parsed.displace_ok found]
      rfl
    have shorter : parsed.cursor.rest.length ≤ cursor.rest.length :=
      (parseCommand_length inner (some ']') cursor).1
    rw [skipScript_of_command outcome, moved]
    exact ih (Nat.le_trans shorter short)
  | case3 cursor parsed ended rest stop =>
    have moved : parseCommand outer (some ']') (cursor.displace distance) =
        parsed.displace (Option.map (Command.displace distance)) distance :=
      parseCommand_displace same _ short
    have outcome : (parseCommand outer (some ']') (cursor.displace distance)).outcome =
        .ok none := by
      rw [moved, Parsed.displace_ok ended]
      rfl
    have closed : (parseCommand outer (some ']') (cursor.displace distance)).cursor.rest =
        ']' :: rest := by
      rw [moved]
      exact stop
    rw [skipScript_closed outcome closed, moved, Parsed.displace_mk_ok, displace_mk,
      Nat.add_right_comm]
    rfl
  | case4 cursor parsed ended notStop =>
    have moved : parseCommand outer (some ']') (cursor.displace distance) =
        parsed.displace (Option.map (Command.displace distance)) distance :=
      parseCommand_displace same _ short
    have outcome : (parseCommand outer (some ']') (cursor.displace distance)).outcome =
        .ok none := by
      rw [moved, Parsed.displace_ok ended]
      rfl
    have unclosed : ∀ rest,
        (parseCommand outer (some ']') (cursor.displace distance)).cursor.rest = ']' :: rest →
          False := by
      rw [moved]
      exact notStop
    rw [skipScript_unclosed outcome unclosed, moved]
    rfl

/-- Any two numbers of levels that are large enough for the characters that are left lead to the
same result. -/
theorem Substitution.displaced_within {levels others : Nat} (enough : bound ≤ levels)
    (enoughToo : bound ≤ others) :
    (within levels).Displaced distance bound (within others) := by
  induction bound generalizing levels others with
  | zero =>
    intro opening cursor short
    exact absurd short (Nat.not_lt_zero _)
  | succ bound ih =>
    cases levels with
    | zero => exact absurd enough (Nat.not_succ_le_zero _)
    | succ levels =>
      cases others with
      | zero => exact absurd enoughToo (Nat.not_succ_le_zero _)
      | succ others =>
        have below := ih (Nat.le_of_succ_le_succ enough) (Nat.le_of_succ_le_succ enoughToo)
        intro opening cursor short
        exact skipScript_displace below opening (Nat.le_of_lt_succ short)

/-! ## Scripts -/

/-- A call for the next command finds further on what it finds here. -/
theorem nextCommand_displace (distance : Nat) (cursor : Cursor) :
    nextCommand (cursor.displace distance) =
      (nextCommand cursor).displace (Option.map (Command.displace distance)) distance :=
  parseCommand_displace (Substitution.displaced_within (Nat.le_refl _) (Nat.le_refl _)) none
    (Nat.le_refl _)

theorem commandsFrom_of_error {cursor : Cursor} {error : ParseError}
    (failed : (nextCommand cursor).outcome = .error error) :
    commandsFrom cursor = [.error error] := by
  rw [commandsFrom]
  split <;> simp_all

theorem commandsFrom_of_none {cursor : Cursor} (ended : (nextCommand cursor).outcome = .ok none) :
    commandsFrom cursor = [] := by
  rw [commandsFrom]
  split <;> simp_all

theorem commandsFrom_of_command {cursor : Cursor} {command : Command}
    (found : (nextCommand cursor).outcome = .ok (some command)) :
    commandsFrom cursor = .ok command :: commandsFrom (nextCommand cursor).cursor := by
  rw [commandsFrom]
  split <;> simp_all

/-- **A script that stands further on has the same commands and errors, further on.** -/
theorem commandsFrom_displace (cursor : Cursor) :
    commandsFrom (cursor.displace distance) =
      (commandsFrom cursor).map (displaced (Command.displace distance) distance) := by
  have moved := nextCommand_displace distance
  fun_induction commandsFrom cursor with
  | case1 cursor parsed error failed =>
    have outcome : (nextCommand (cursor.displace distance)).outcome =
        .error (error.displace distance) := by
      rw [moved, Parsed.displace_error failed]
    rw [commandsFrom_of_error outcome]
    rfl
  | case2 cursor parsed ended =>
    have outcome : (nextCommand (cursor.displace distance)).outcome = .ok none := by
      rw [moved, Parsed.displace_ok ended]
      rfl
    rw [commandsFrom_of_none outcome]
    rfl
  | case3 cursor parsed command found ih =>
    have outcome : (nextCommand (cursor.displace distance)).outcome =
        .ok (some (command.displace distance)) := by
      rw [moved, Parsed.displace_ok found]
      rfl
    rw [commandsFrom_of_command outcome, moved, Parsed.displace_cursor, ih]
    rfl

end CompiledScript
