import CompiledScript.Proofs.Script.Octets

/-!
# The way of the parser through a script

Every function of the parser takes a cursor and leaves another one.  The second is a
later position of the same text: what stands between the two has been passed, and the
offset counts its bytes.  This is what makes the offsets of words and commands mean
anything, since nothing else ties them to the text.
-/

set_option autoImplicit false

namespace CompiledScript

/-! ## Later positions of a text -/

namespace Cursor

/-- The second cursor is a later position of the text that the first one stands in. -/
def Leads (start stop : Cursor) : Prop :=
  ∃ passed, start.rest = passed ++ stop.rest ∧ stop.offset = start.offset + octets passed

namespace Leads

variable {start middle stop : Cursor} {offset : Nat} {char : Char} {chars rest : List Char}

@[refl] theorem refl (cursor : Cursor) : cursor.Leads cursor := ⟨[], rfl, rfl⟩

theorem trans (first : start.Leads middle) (second : middle.Leads stop) : start.Leads stop := by
  obtain ⟨front, split, offset⟩ := first
  obtain ⟨back, splitToo, offsetToo⟩ := second
  refine ⟨front ++ back, ?_, ?_⟩
  · rw [split, splitToo, List.append_assoc]
  · rw [offsetToo, offset, octets_append, Nat.add_assoc]

/-- A character has been passed. -/
theorem step {size : Nat} (sized : char.utf8Size = size)
    (further : Leads ⟨offset + size, rest⟩ stop) : Leads ⟨offset, char :: rest⟩ stop := by
  obtain ⟨passed, split, ends⟩ := further
  refine ⟨char :: passed, ?_, ?_⟩
  · exact congrArg (char :: ·) split
  · rw [ends, octets_cons, sized, Nat.add_assoc]

/-- A number of ASCII characters of a kind has been passed. -/
theorem ahead {kind : Char → Bool} (ascii : AsciiKind kind) {front : List Char}
    (leading : front <+: chars) (all : front.all kind = true) :
    Leads ⟨offset, chars⟩ ⟨offset + front.length, chars.drop front.length⟩ := by
  obtain ⟨back, rfl⟩ := leading
  refine ⟨front, ?_, ?_⟩
  · rw [List.drop_left]
  · rw [octets_of_kind ascii all]

theorem suffix (leads : start.Leads stop) : stop.rest <:+ start.rest := by
  obtain ⟨passed, split, -⟩ := leads
  exact ⟨passed, split.symm⟩

/-- The offset and what is left add up to the size of the text. -/
theorem total (leads : start.Leads stop) :
    stop.offset + octets stop.rest = start.offset + octets start.rest := by
  obtain ⟨passed, split, offset⟩ := leads
  rw [split, offset, octets_append, Nat.add_assoc]

theorem offset_le (leads : start.Leads stop) : start.offset ≤ stop.offset := by
  obtain ⟨passed, -, offset⟩ := leads
  omega

/-- The offset has grown if fewer characters are left. -/
theorem offset_lt (leads : start.Leads stop) (shorter : stop.rest.length < start.rest.length) :
    start.offset < stop.offset := by
  obtain ⟨passed, split, offset⟩ := leads
  cases passed with
  | nil =>
    rw [split] at shorter
    exact absurd shorter (Nat.lt_irrefl _)
  | cons char passed =>
    have positive : 0 < char.utf8Size := char.utf8Size_pos
    rw [octets_cons] at offset
    omega

end Leads

theorem upTo_octets (passed taken rest : List Char) :
    upTo (octets passed) taken (passed ++ rest) = taken.reverse ++ passed := by
  induction passed generalizing taken with
  | nil => cases rest <;> simp [upTo]
  | cons char passed ih =>
    have positive : 0 < char.utf8Size := char.utf8Size_pos
    have some_left : ¬char.utf8Size + octets passed = 0 := by omega
    rw [octets_cons, List.cons_append, upTo, if_neg some_left, Nat.add_sub_cancel_left, ih]
    simp

/-- The text between two positions is what was passed. -/
theorem textTo_eq {start stop : Cursor} {passed : List Char}
    (split : start.rest = passed ++ stop.rest)
    (offset : stop.offset = start.offset + octets passed) :
    textTo start stop = String.ofList passed := by
  rw [textTo, split, offset, Nat.add_sub_cancel_left, upTo_octets]
  rfl

/-! ## Gaps -/

theorem isWordEnd_cons {terminator : Option Char} {char : Char} {rest : List Char}
    (other : ∀ behind, char = '\\' → rest = '\n' :: behind → False) :
    isWordEnd terminator (char :: rest) =
      (isBlank char || char == '\n' || char == ';' || some char == terminator) := by
  unfold isWordEnd
  split
  · contradiction
  · rename_i behind same
    cases same
    exact absurd rfl (other behind rfl)
  · rename_i same
    cases same
    rfl

theorem leads_skipBlanks (offset : Nat) (chars : List Char) :
    Leads ⟨offset, chars⟩ (skipBlanks offset chars) := by
  fun_induction skipBlanks offset chars with
  | case1 => rfl
  | case2 offset rest ih => exact .step rfl (.step rfl ih)
  | case3 offset char rest _ blank ih =>
    exact .step (utf8Size_of_ascii (ascii_isBlank char blank)) ih
  | case4 => rfl

theorem leads_skipGap (terminator : Option Char) (inComment : Bool) (offset : Nat)
    (chars : List Char) :
    Leads ⟨offset, chars⟩ (skipGap terminator inComment offset chars) := by
  fun_induction skipGap terminator inComment offset chars with
  | case1 => rfl
  | case2 offset char rest ih => exact .step rfl (.step rfl ih)
  | case3 inComment offset char rest _ lineEnd ih =>
    cases eq_of_beq lineEnd
    exact .step rfl (.step rfl ih)
  | case4 => rfl
  | case5 inComment offset char rest _ lineEnd ih =>
    cases eq_of_beq lineEnd
    exact .step rfl ih
  | case6 => rfl
  | case7 offset char rest _ _ _ ih => exact .step rfl ih
  | case8 inComment offset char rest _ _ _ separates ih =>
    rcases Bool.or_eq_true_iff.mp separates with blank | semicolon
    · exact .step (utf8Size_of_ascii (ascii_isBlank char blank)) ih
    · cases eq_of_beq semicolon
      exact .step rfl ih
  | case9 inComment offset char rest _ _ _ _ sharp ih =>
    cases eq_of_beq sharp
    exact .step rfl ih
  | case10 => rfl

end Cursor

/-! ## Substitutions and variables -/

open Cursor

/-- A way to skip substitutions that only moves on in the text. -/
def Substitution.MovesOn (inner : Substitution) : Prop :=
  ∀ (opening : Nat) (cursor : Cursor), cursor.Leads (inner.skip opening cursor).cursor

theorem leads_skipBracedName (word offset : Nat) (chars : List Char) :
    Leads ⟨offset, chars⟩ (skipBracedName word offset chars).cursor := by
  fun_induction skipBracedName word offset chars with
  | case1 => rfl
  | case2 => exact .step rfl (.refl _)
  | case3 offset char rest next _ ih => exact .step rfl ih

theorem leads_skipIndex {inner : Substitution} (moves : inner.MovesOn) (depth offset : Nat)
    (chars : List Char) : Leads ⟨offset, chars⟩ (skipIndex inner depth offset chars).cursor := by
  fun_induction skipIndex inner depth offset chars with
  | case1 => rfl
  | case2 depth offset rest ih => exact .step rfl ih
  | case3 => exact .step rfl (.refl _)
  | case4 depth offset rest _ ih => exact .step rfl ih
  | case5 depth offset rest => exact .step rfl (moves _ _)
  | case6 depth offset rest skipped _ ih => exact .step rfl ((moves _ _).trans ih)
  | case7 depth offset char rest ih => exact .step rfl (.step rfl ih)
  | case8 depth offset char rest _ _ _ _ ih => exact .step rfl ih

theorem leads_skipVariable {inner : Substitution} (moves : inner.MovesOn) (word offset : Nat)
    (chars : List Char) :
    Leads ⟨offset, chars⟩ (skipVariable inner word offset chars).cursor := by
  unfold skipVariable
  split
  · exact .step rfl (leads_skipBracedName word _ _)
  · have name : Leads ⟨offset, chars⟩
        ⟨offset + (chars.takeWhile isNameChar).length,
          chars.drop (chars.takeWhile isNameChar).length⟩ :=
      .ahead ascii_isNameChar ( List.takeWhile_prefix isNameChar) List.all_takeWhile
    simp only
    split
    · exact name.trans (leads_skipIndex moves 0 _ _)
    · exact name

/-! ## Words with substitutions -/

namespace Backslash

theorem prefix_leadingDigits (digit? : Char → Option Nat) (count : Nat) (chars : List Char) :
    leadingDigits digit? count chars <+: chars :=
  (List.takeWhile_prefix _).trans (List.take_prefix count chars)

theorem all_leadingDigits (digit? : Char → Option Nat) (count : Nat) (chars : List Char) :
    (leadingDigits digit? count chars).all (fun char => (digit? char).isSome) = true :=
  List.all_takeWhile

/-- What belongs to a backslash sequence behind its first character: the indentation of a continued
line, or digits. -/
def run (char : Char) (rest : List Char) : List Char :=
  match char with
  | '\n' => rest.takeWhile isIndent
  | 'x' => leadingDigits hexDigit? 2 rest
  | 'u' => leadingDigits hexDigit? 4 rest
  | 'U' => leadingDigits hexDigit? 8 rest
  | _ => if (octalDigit? char).isSome then leadingDigits octalDigit? 2 rest else []

/-- What a backslash sequence stands for. -/
def meaning (char : Char) (run : List Char) : List Char :=
  match char with
  | 'n' => ['\n']
  | 't' => ['\t']
  | 'r' => ['\r']
  | 'a' => ['\x07']
  | 'b' => ['\x08']
  | 'f' => ['\x0c']
  | 'v' => ['\x0b']
  | '\n' => [' ']
  | 'x' | 'u' | 'U' => hexChars char run
  | _ =>
    if (octalDigit? char).isSome then [Char.ofNat (numberOf octalDigit? 8 (char :: run) % 256)]
    else [char]

theorem decode_cons (offset : Nat) (char : Char) (rest : List Char) :
    decode offset (char :: rest) =
      (meaning char (run char rest), ⟨offset + char.utf8Size + (run char rest).length,
        rest.drop (run char rest).length⟩) := by
  unfold decode
  simp only
  split
  case h_12 =>
    by_cases octal : (octalDigit? char).isSome
    · simp_all [meaning, run]
    · simp_all [meaning, run]
  all_goals rfl

theorem prefix_run (char : Char) (rest : List Char) : run char rest <+: rest := by
  unfold run
  split
  · exact List.takeWhile_prefix _
  · exact prefix_leadingDigits _ _ rest
  · exact prefix_leadingDigits _ _ rest
  · exact prefix_leadingDigits _ _ rest
  · split
    · exact prefix_leadingDigits _ _ rest
    · exact List.nil_prefix

/-- What belongs to a backslash sequence behind its first character is ASCII. -/
theorem octets_run (char : Char) (rest : List Char) :
    octets (run char rest) = (run char rest).length := by
  have digits {digit? : Char → Option Nat} (ascii : AsciiKind fun char => (digit? char).isSome)
      (count : Nat) : octets (leadingDigits digit? count rest) =
        (leadingDigits digit? count rest).length :=
    octets_of_kind ascii (all_leadingDigits digit? count rest)
  unfold run
  split
  · exact octets_of_kind ascii_isIndent List.all_takeWhile
  · exact digits ascii_hexDigit 2
  · exact digits ascii_hexDigit 4
  · exact digits ascii_hexDigit 8
  · split
    · exact digits ascii_octalDigit 2
    · rfl

theorem leads_decode (offset : Nat) (chars : List Char) :
    Leads ⟨offset, chars⟩ (decode offset chars).2 := by
  cases chars with
  | nil => rfl
  | cons char rest =>
    rw [decode_cons]
    refine .step rfl ⟨run char rest, ?_, ?_⟩
    · exact (List.prefix_iff_eq_append.mp (prefix_run char rest)).symm
    · rw [octets_run]

end Backslash

theorem leads_readElement {inner : Substitution} (moves : inner.MovesOn) (word : Nat)
    (state : WordState) (offset : Nat) (char : Char) (rest : List Char) :
    Leads ⟨offset, char :: rest⟩ (readElement inner word state offset char rest).cursor := by
  unfold readElement
  split
  · rename_i backslash
    cases eq_of_beq backslash
    exact .step rfl (Backslash.leads_decode _ _)
  · split
    · rename_i dollar
      cases eq_of_beq (Bool.and_eq_true_iff.mp dollar).1
      exact .step rfl (leads_skipVariable moves word _ _)
    · split
      · rename_i bracket
        cases eq_of_beq bracket
        exact .step rfl (moves _ _)
      · exact .step rfl (.refl _)

theorem leads_readQuoted {inner : Substitution} (moves : inner.MovesOn) (word : Nat)
    (state : WordState) (offset : Nat) (chars : List Char) :
    Leads ⟨offset, chars⟩ (readQuoted inner word state offset chars).cursor := by
  fun_induction readQuoted inner word state offset chars with
  | case1 => rfl
  | case2 => rfl
  | case3 state offset char rest => exact leads_readElement moves word state offset char rest
  | case4 state offset char rest _ read next _ ih =>
    exact (leads_readElement moves word state offset char rest).trans ih

/-- The closing quote stands where a quoted word was read to. -/
theorem readQuoted_closed {inner : Substitution} {word : Nat} {state read : WordState}
    {offset : Nat} {chars : List Char}
    (closed : (readQuoted inner word state offset chars).outcome = .ok read) :
    ∃ rest, (readQuoted inner word state offset chars).cursor.rest = '"' :: rest := by
  fun_induction readQuoted inner word state offset chars with
  | case1 => cases closed
  | case2 state offset char rest quote => exact ⟨rest, congrArg (· :: rest) (eq_of_beq quote)⟩
  | case3 => cases closed
  | case4 state offset char rest _ read next _ ih => exact ih closed

theorem leads_readBare {inner : Substitution} (moves : inner.MovesOn) (terminator : Option Char)
    (word : Nat) (state : WordState) (offset : Nat) (chars : List Char) :
    Leads ⟨offset, chars⟩ (readBare inner terminator word state offset chars).cursor := by
  fun_induction readBare inner terminator word state offset chars with
  | case1 => rfl
  | case2 => rfl
  | case3 state offset char rest => exact leads_readElement moves word state offset char rest
  | case4 state offset char rest read next _ _ ih =>
    exact (leads_readElement moves word state offset char rest).trans ih

/-! ## Words -/

theorem leads_readBraced (word depth : Nat) (content : List Char) (offset : Nat)
    (chars : List Char) :
    Leads ⟨offset, chars⟩ (readBraced word depth content offset chars).cursor := by
  fun_induction readBraced word depth content offset chars with
  | case1 => rfl
  | case2 depth content offset char rest ih => exact .step rfl (.step rfl ih)
  | case3 depth content offset rest ih => exact .step rfl ih
  | case4 content offset rest => exact .step rfl (.refl _)
  | case5 content offset rest depth ih => exact .step rfl ih
  | case6 depth content offset char rest _ _ _ ih => exact .step rfl ih

/-- What was read of a braced word stands in front of the brace that closes it. -/
theorem readBraced_content {word depth : Nat} {content read : List Char} {offset : Nat}
    {chars : List Char}
    (closed : (readBraced word depth content offset chars).outcome = .ok read) :
    ∃ inside, read = inside.reverse ++ content ∧
      chars = inside ++ '}' :: (readBraced word depth content offset chars).cursor.rest ∧
      (readBraced word depth content offset chars).cursor.offset = offset + octets inside + 1 := by
  fun_induction readBraced word depth content offset chars with
  | case1 => cases closed
  | case2 depth content offset char rest ih =>
    obtain ⟨inside, rfl, split, ends⟩ := ih closed
    refine ⟨'\\' :: char :: inside, by simp, congrArg ('\\' :: char :: ·) split, ?_⟩
    have one : '\\'.utf8Size = 1 := rfl
    rw [ends, octets_cons, octets_cons, one]
    omega
  | case3 depth content offset rest ih =>
    obtain ⟨inside, rfl, split, ends⟩ := ih closed
    refine ⟨'{' :: inside, by simp, congrArg ('{' :: ·) split, ?_⟩
    have one : '{'.utf8Size = 1 := rfl
    rw [ends, octets_cons, one]
    omega
  | case4 content offset rest =>
    cases closed
    exact ⟨[], rfl, rfl, rfl⟩
  | case5 content offset rest depth ih =>
    obtain ⟨inside, rfl, split, ends⟩ := ih closed
    refine ⟨'}' :: inside, by simp, congrArg ('}' :: ·) split, ?_⟩
    have one : '}'.utf8Size = 1 := rfl
    rw [ends, octets_cons, one]
    omega
  | case6 depth content offset char rest _ _ _ ih =>
    obtain ⟨inside, rfl, split, ends⟩ := ih closed
    refine ⟨char :: inside, by simp, congrArg (char :: ·) split, ?_⟩
    rw [ends, octets_cons]
    omega

theorem leads_parseBraced (terminator : Option Char) (offset : Nat) (rest : List Char) :
    Leads ⟨offset, '{' :: rest⟩ (parseBraced terminator offset rest).cursor := by
  have read := leads_readBraced offset 0 [] (offset + 1) rest
  unfold parseBraced
  simp only
  split
  · exact .step rfl read
  · rw [endDelimited_cursor]
    exact .step rfl read

theorem leads_parseQuoted {inner : Substitution} (moves : inner.MovesOn)
    (terminator : Option Char) (offset : Nat) (rest : List Char) :
    Leads ⟨offset, '"' :: rest⟩ (parseQuoted inner terminator offset rest).cursor := by
  have read := leads_readQuoted moves offset ⟨[], true⟩ (offset + 1) rest
  unfold parseQuoted
  simp only
  split
  · exact .step rfl read
  · rename_i state closed
    obtain ⟨behind, quote⟩ := readQuoted_closed closed
    rw [endDelimited_cursor]
    refine .step rfl (read.trans ⟨['"'], ?_, rfl⟩)
    rw [quote]
    rfl

theorem leads_parseBare {inner : Substitution} (moves : inner.MovesOn) (terminator : Option Char)
    (offset : Nat) (chars : List Char) :
    Leads ⟨offset, chars⟩ (parseBare inner terminator offset chars).cursor := by
  have read := leads_readBare moves terminator offset ⟨[], true⟩ offset chars
  unfold parseBare
  simp only
  split <;> exact read

theorem leads_parseWord {inner : Substitution} (moves : inner.MovesOn) (terminator : Option Char)
    (offset : Nat) (chars : List Char) :
    Leads ⟨offset, chars⟩ (parseWord inner terminator offset chars).cursor := by
  fun_induction parseWord inner terminator offset chars with
  | case1 offset rest => exact leads_parseBraced terminator offset _
  | case2 offset rest _ expanded error _ ih => exact .step rfl (.step rfl (.step rfl ih))
  | case3 offset rest _ expanded word _ ih => exact .step rfl (.step rfl (.step rfl ih))
  | case4 offset rest => exact leads_parseBraced terminator offset rest
  | case5 offset rest => exact leads_parseQuoted moves terminator offset rest
  | case6 offset chars => exact leads_parseBare moves terminator offset chars

/-! ## Commands -/

theorem leads_parseWords {inner : Substitution} (moves : inner.MovesOn) (terminator : Option Char)
    (words : List Word) (offset : Nat) (chars : List Char) :
    Leads ⟨offset, chars⟩ (parseWords inner terminator words offset chars).cursor := by
  fun_induction parseWords inner terminator words offset chars with
  | case1 words offset chars => exact leads_skipBlanks offset chars
  | case2 words offset chars =>
    exact (leads_skipBlanks offset chars).trans (leads_parseWord moves terminator _ _)
  | case3 words offset chars here _ parsed word _ ih =>
    exact (leads_skipBlanks offset chars).trans ((leads_parseWord moves terminator _ _).trans ih)

theorem leads_parseCommand {inner : Substitution} (moves : inner.MovesOn)
    (terminator : Option Char) (cursor : Cursor) :
    cursor.Leads (parseCommand inner terminator cursor).cursor := by
  have gap := leads_skipGap terminator false cursor.offset cursor.rest
  unfold parseCommand
  simp only
  split
  · exact gap
  · exact gap.trans (leads_parseWords moves terminator _ _ _)

theorem leads_skipScript {inner : Substitution} (moves : inner.MovesOn) (opening : Nat)
    (cursor : Cursor) : cursor.Leads (skipScript inner opening cursor).cursor := by
  fun_induction skipScript inner opening cursor with
  | case1 cursor => exact leads_parseCommand moves _ cursor
  | case2 cursor parsed command _ ih => exact (leads_parseCommand moves _ cursor).trans ih
  | case3 cursor parsed _ rest stop =>
    refine (leads_parseCommand moves _ cursor).trans ⟨[']'], ?_, rfl⟩
    exact stop
  | case4 cursor => exact leads_parseCommand moves _ cursor

theorem Substitution.movesOn_within (levels : Nat) : (within levels).MovesOn := by
  induction levels with
  | zero => exact fun _ cursor => .refl cursor
  | succ levels ih => exact fun opening cursor => leads_skipScript ih opening cursor

/-- A call for the next command moves on in the script. -/
theorem leads_nextCommand (cursor : Cursor) : cursor.Leads (nextCommand cursor).cursor :=
  leads_parseCommand (Substitution.movesOn_within _) none cursor

end CompiledScript
