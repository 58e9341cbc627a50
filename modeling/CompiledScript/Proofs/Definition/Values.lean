import CompiledScript.Definition.Scan
import CompiledScript.Proofs.Script.Words
import Mathlib.Algebra.GroupWithZero.Nat

/-!
# No value is longer than its word

The offset of a command in the body of a namespace is added to the offset of the body, as
if the value of the word were its text.  It is not, but it takes up at most as many bytes:
joining continued lines takes some away, and no backslash sequence stands for more bytes
than it is written with.  So whatever is scanned in a body, its offset does not lie behind
the script.
-/

set_option autoImplicit false

namespace CompiledScript

open Cursor

theorem octets_reverse (chars : List Char) : octets chars.reverse = octets chars := by
  induction chars with
  | nil => rfl
  | cons char chars ih =>
    rw [List.reverse_cons, octets_append, ih, octets_cons, octets_cons, octets_nil]
    omega

/-! ## Backslash sequences -/

namespace Backslash

/-- A character whose number is written with a number of hexadecimal digits takes up no more
bytes. -/
theorem utf8Size_le {char : Char} {digits : Nat} (small : char.toNat < 16 ^ digits)
    (some_digit : 0 < digits) : char.utf8Size ≤ digits := by
  have size : char.utf8Size =
      if char.toNat ≤ 127 then 1 else if char.toNat ≤ 2047 then 2
      else if char.toNat ≤ 65535 then 3 else 4 := by
    simp only [Char.utf8Size, UInt32.le_iff_toNat_le]
    rfl
  rw [size]
  match digits with
  | 1 | 2 | 3 | 4 | _ + 5 =>
    repeat' split
    all_goals omega

theorem hexDigit?_lt (char : Char) : (hexDigit? char).getD 0 < 16 := by
  have value : char.val.toNat = char.toNat := rfl
  unfold hexDigit?
  simp only [Char.le_def, UInt32.le_iff_toNat_le, value]
  split
  · rename_i bounds
    have last : char.toNat ≤ 57 := bounds.2
    simp only [Option.getD_some]
    omega
  · split
    · rename_i bounds
      have last : char.toNat ≤ 102 := bounds.2
      simp only [Option.getD_some]
      omega
    · split
      · rename_i bounds
        have last : char.toNat ≤ 70 := bounds.2
        simp only [Option.getD_some]
        omega
      · simp only [Option.getD_none]
        omega

theorem numberOf_lt (digits : List Char) : numberOf hexDigit? 16 digits < 16 ^ digits.length := by
  have from_ : ∀ number, digits.foldl (fun number char => number * 16 + (hexDigit? char).getD 0)
      number < (number + 1) * 16 ^ digits.length := by
    induction digits with
    | nil =>
      intro number
      rw [List.foldl_nil, List.length_nil]
      omega
    | cons char digits ih =>
      intro number
      have digit := hexDigit?_lt char
      rw [List.foldl_cons, List.length_cons, Nat.pow_succ']
      calc digits.foldl (fun number char => number * 16 + (hexDigit? char).getD 0)
              (number * 16 + (hexDigit? char).getD 0)
        _ < (number * 16 + (hexDigit? char).getD 0 + 1) * 16 ^ digits.length := ih _
        _ ≤ ((number + 1) * 16) * 16 ^ digits.length := Nat.mul_le_mul_right _ (by omega)
        _ = (number + 1) * (16 * 16 ^ digits.length) := Nat.mul_assoc _ _ _
  have whole := from_ 0
  rwa [Nat.zero_add, Nat.one_mul] at whole

theorem toNat_ofNat_le (number : Nat) : (Char.ofNat number).toNat ≤ number := by
  by_cases valid : number.isValidChar
  · rw [Char.ofNat, dif_pos valid]
    exact Nat.le_refl _
  · rw [Char.ofNat, dif_neg valid]
    exact Nat.zero_le _

theorem octets_hexChars_le (letter : Char) (digits : List Char) :
    octets (hexChars letter digits) ≤ letter.utf8Size + octets digits := by
  unfold hexChars
  simp only
  split
  · rename_i named
    have small : (Char.ofNat (numberOf hexDigit? 16 digits)).toNat < 16 ^ digits.length :=
      Nat.lt_of_le_of_lt (toNat_ofNat_le _) (numberOf_lt digits)
    have size := utf8Size_le small (List.length_pos_iff.mpr named.1)
    have length := length_le_octets digits
    rw [octets_cons, octets_nil]
    omega
  · exact Nat.le_refl _

theorem octets_meaning_le (char : Char) (run : List Char) :
    octets (meaning char run) ≤ 1 + char.utf8Size + octets run := by
  have positive := char.utf8Size_pos
  have one (letter : Char) (ascii : letter.toNat < 128) :
      octets [letter] ≤ 1 + char.utf8Size + octets run := by
    rw [octets_cons, utf8Size_of_ascii ascii, octets_nil]
    omega
  unfold meaning
  split
  case h_12 =>
    split
    · have small : (Char.ofNat (numberOf octalDigit? 8 (char :: run) % 256)).toNat < 16 ^ 2 :=
        Nat.lt_of_le_of_lt (toNat_ofNat_le _) (Nat.mod_lt _ (by decide))
      have size := utf8Size_le small (by decide)
      rw [octets_cons, octets_nil]
      omega
    · rw [octets_cons, octets_nil]
      omega
  case h_9 | h_10 | h_11 =>
    exact Nat.le_trans (octets_hexChars_le _ run) (Nat.add_le_add_right (Nat.le_add_left _ _) _)
  all_goals exact one _ (by decide)

/-- A backslash sequence stands for no more bytes than it is written with. -/
theorem octets_decode_le (offset : Nat) (chars : List Char) :
    octets (decode (offset + 1) chars).1 + offset ≤ (decode (offset + 1) chars).2.offset := by
  cases chars with
  | nil =>
    have one : '\\'.utf8Size = 1 := rfl
    simp only [decode, octets_cons, octets_nil, one]
    omega
  | cons char rest =>
    have size := octets_meaning_le char (run char rest)
    rw [octets_run] at size
    rw [decode_cons]
    simp only
    omega

theorem octets_joinLines_le (joined : List Char) (run : Nat) (chars : List Char) :
    octets (joinLines joined run chars) ≤ octets joined + octets chars := by
  fun_induction joinLines joined run chars with
  | case1 joined =>
    rw [octets_reverse]
    exact Nat.le_add_right _ _
  | case2 joined run rest odd ih =>
    simp only [octets_cons] at ih ⊢
    omega
  | case3 joined run rest even ih =>
    have shorter : octets (rest.dropWhile isIndent) ≤ octets rest :=
      octets_le_of_suffix (List.dropWhile_suffix isIndent)
    have space : ' '.utf8Size = 1 := rfl
    have lineEnd : '\n'.utf8Size = 1 := rfl
    simp only [octets_cons] at ih ⊢
    omega
  | case4 joined run char rest other ih =>
    simp only [octets_cons, dite_eq_ite] at ih ⊢
    omega

end Backslash

/-! ## Words -/

/-- The content of a literal word, taken to be as long as its value, does not reach behind an
offset. -/
def Word.Fits (word : Word) (stop : Nat) : Prop :=
  word.literal = true → Scan.contentOffset word + octets word.value.toList ≤ stop

theorem Word.Fits.further {word : Word} {stop later : Nat} (fits : word.Fits stop)
    (onwards : stop ≤ later) : word.Fits later :=
  fun literal => Nat.le_trans (fits literal) onwards

/-- What is read of a word from one offset up to another is no longer than what stands there, where
nothing is substituted. -/
def WordState.Grows (before after : WordState) (start stop : Nat) : Prop :=
  after.literal = true → before.literal = true ∧
    octets after.value + start ≤ octets before.value + stop

theorem WordState.Grows.refl (state : WordState) (offset : Nat) :
    state.Grows state offset offset := fun literal => ⟨literal, Nat.le_refl _⟩

theorem WordState.Grows.trans {before between after : WordState} {start middle stop : Nat}
    (first : before.Grows between start middle) (second : between.Grows after middle stop) :
    before.Grows after start stop := by
  intro literal
  obtain ⟨literalBetween, sizeBehind⟩ := second literal
  obtain ⟨literalBefore, sizeInFront⟩ := first literalBetween
  exact ⟨literalBefore, by omega⟩

theorem readElement_grows (inner : Substitution) {word : Nat} {state next : WordState}
    {offset : Nat} {char : Char} {rest : List Char}
    (read : (readElement inner word state offset char rest).outcome = .ok next) :
    state.Grows next offset (readElement inner word state offset char rest).cursor.offset := by
  have substituted {outcome : Except ParseError Unit} {stop : Nat}
      (done : outcome.map (fun () => { state with literal := false }) = .ok next) :
      state.Grows next offset stop := by
    cases outcome with
    | error error => cases done
    | ok =>
      cases done
      exact nofun
  by_cases backslash : (char == '\\') = true
  · have size := Backslash.octets_decode_le offset rest
    rw [readElement, if_pos backslash] at read ⊢
    generalize Backslash.decode (offset + 1) rest = decoded at size read ⊢
    obtain ⟨value, stop⟩ := decoded
    cases read
    intro literal
    refine ⟨literal, ?_⟩
    simp only [octets_append, octets_reverse] at size ⊢
    omega
  · rw [readElement, if_neg backslash] at read ⊢
    split at read
    · exact substituted read
    · rename_i plain
      rw [if_neg plain]
      split at read
      · exact substituted read
      · rename_i single
        rw [if_neg single]
        cases read
        intro literal
        refine ⟨literal, ?_⟩
        simp only [octets_cons]
        omega

theorem readQuoted_grows {inner : Substitution} {word : Nat} {state read : WordState}
    {offset : Nat} {chars : List Char}
    (closed : (readQuoted inner word state offset chars).outcome = .ok read) :
    state.Grows read offset (readQuoted inner word state offset chars).cursor.offset := by
  fun_induction readQuoted inner word state offset chars with
  | case1 => cases closed
  | case2 state offset =>
    cases closed
    exact .refl _ _
  | case3 => cases closed
  | case4 state offset char rest _ element next found ih =>
    exact (readElement_grows inner found).trans (ih closed)

theorem readBare_grows {inner : Substitution} {terminator : Option Char} {word : Nat}
    {state read : WordState} {offset : Nat} {chars : List Char}
    (ended : (readBare inner terminator word state offset chars).outcome = .ok read) :
    state.Grows read offset (readBare inner terminator word state offset chars).cursor.offset := by
  fun_induction readBare inner terminator word state offset chars with
  | case1 state offset =>
    cases ended
    exact .refl _ _
  | case2 state offset =>
    cases ended
    exact .refl _ _
  | case3 => cases ended
  | case4 state offset char rest element next found _ ih =>
    exact (readElement_grows inner found).trans (ih ended)

theorem parseBraced_fits {terminator : Option Char} {offset : Nat} {chars : List Char}
    {word : Word} (found : (parseBraced terminator offset chars).outcome = .ok word) :
    word.Fits (parseBraced terminator offset chars).cursor.offset := by
  unfold parseBraced at found ⊢
  simp only at found ⊢
  split at found
  · cases found
  · rename_i content closed
    obtain ⟨inside, rfl, -, stop⟩ := readBraced_content closed
    have size := Backslash.octets_joinLines_le [] 0 inside
    rw [endDelimited_cursor, endDelimited_ok found, stop]
    intro literal
    simp only [List.append_nil, List.reverse_reverse, String.toList_ofList, Scan.contentOffset]
    rw [Backslash.collapse]
    rw [octets_nil] at size
    omega

theorem parseQuoted_fits {inner : Substitution} {terminator : Option Char} {offset : Nat}
    {chars : List Char} {word : Word}
    (found : (parseQuoted inner terminator offset chars).outcome = .ok word) :
    word.Fits (parseQuoted inner terminator offset chars).cursor.offset := by
  unfold parseQuoted at found ⊢
  simp only at found ⊢
  split at found
  · cases found
  · rename_i state closed
    have grows := readQuoted_grows closed
    rw [endDelimited_cursor, endDelimited_ok found]
    intro literal
    obtain ⟨-, size⟩ := grows literal
    change state.literal = true at literal
    simp only [literal, if_true, String.toList_ofList, Scan.contentOffset, octets_reverse]
    simp only [octets_nil] at size
    omega

theorem parseBare_fits {inner : Substitution} {terminator : Option Char} {offset : Nat}
    {chars : List Char} {word : Word}
    (found : (parseBare inner terminator offset chars).outcome = .ok word) :
    word.Fits (parseBare inner terminator offset chars).cursor.offset := by
  unfold parseBare at found ⊢
  simp only at found ⊢
  split at found
  · cases found
  · rename_i state ended
    have grows := readBare_grows ended
    cases found
    intro literal
    obtain ⟨-, size⟩ := grows literal
    change state.literal = true at literal
    simp only [literal, if_true, String.toList_ofList, Scan.contentOffset, octets_reverse]
    simp only [octets_nil] at size
    omega

theorem parseWord_fits {inner : Substitution} {terminator : Option Char} {offset : Nat}
    {chars : List Char} {word : Word}
    (found : (parseWord inner terminator offset chars).outcome = .ok word) :
    word.Fits (parseWord inner terminator offset chars).cursor.offset := by
  fun_induction parseWord inner terminator offset chars with
  | case1 => exact parseBraced_fits found
  | case2 => cases found
  | case3 =>
    cases found
    intro literal
    cases literal
  | case4 => exact parseBraced_fits found
  | case5 => exact parseQuoted_fits found
  | case6 => exact parseBare_fits found

/-! ## Commands -/

/-- A command and the contents of its words do not reach behind an offset. -/
structure Command.Fits (command : Command) (stop : Nat) : Prop where
  stands : command.offset ≤ stop
  words : ∀ word ∈ command.words, word.Fits stop

theorem parseCommand_fits {inner : Substitution} (moves : inner.MovesOn)
    {terminator : Option Char} {cursor : Cursor} {command : Command}
    (found : (parseCommand inner terminator cursor).outcome = .ok (some command)) :
    command.Fits (parseCommand inner terminator cursor).cursor.offset where
  stands := by
    obtain ⟨⟨first, others, starts, stands⟩, ascend⟩ := parseCommand_found moves found
    have between := ascend.between first (starts ▸ List.mem_cons_self)
    omega
  words word listed := by
    obtain ⟨here, -, read, onwards⟩ := parseCommand_readIn moves found word listed
    exact (parseWord_fits read).further onwards.offset_le

theorem commandsFrom_fits {cursor : Cursor} {command : Command}
    (found : .ok command ∈ commandsFrom cursor) :
    command.Fits (cursor.offset + octets cursor.rest) := by
  fun_induction commandsFrom cursor with
  | case1 => simp at found
  | case2 => cases found
  | case3 cursor parsed first read ih =>
    have total : parsed.cursor.offset + octets parsed.cursor.rest =
        cursor.offset + octets cursor.rest := (leads_nextCommand cursor).total
    rcases List.mem_cons.mp found with same | later
    · cases same
      have fits : command.Fits parsed.cursor.offset :=
        parseCommand_fits (Substitution.movesOn_within _) read
      have onwards : parsed.cursor.offset ≤ cursor.offset + octets cursor.rest := by omega
      exact ⟨Nat.le_trans fits.stands onwards,
        fun word listed => (fits.words word listed).further onwards⟩
    · rw [← total]
      exact ih later

/-- **No command of a script reaches behind it, with whatever is scanned in its words.** -/
theorem parseScript_fits {script : String} {command : Command}
    (found : .ok command ∈ parseScript script) : command.Fits (octets script.toList) := by
  have fits := commandsFrom_fits found
  rwa [Cursor.start, Nat.zero_add] at fits

end CompiledScript
