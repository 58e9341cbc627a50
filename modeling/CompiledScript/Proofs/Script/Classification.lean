import CompiledScript.Proofs.Definition.Values
import CompiledScript.Proofs.Script.Displacement
import CompiledScript.Proofs.Script.Progress

/-!
# Which words are literal

A bare or quoted word is literal exactly if nothing in its text would be substituted: no
bracket, and no dollar sign in front of what may be the name of a variable, unless
a backslash hides it.  This is said of the text alone and read off from left to right.

The parser does not read in this way.  It decodes backslash sequences of any
length and skips what is substituted.  Up to the first substitution the two keep step,
though: what belongs to a backslash sequence behind its first character starts no
substitution.  And the parser looks at the character behind a dollar sign only, which
belongs to the word as well, since the word does not end in front of a name.
-/

set_option autoImplicit false

namespace CompiledScript

open Cursor

/-! ## Substitutions in a text -/

/-- Whether a substitution starts at the first of the characters: at a bracket, or at a dollar sign
in front of a brace, an underscore, a colon, a letter or a digit. -/
def opensSubstitution : List Char → Bool
  | '[' :: _ => true
  | '$' :: next :: _ => next == '{' || next == '_' || next == ':' || next.isAlphanum
  | _ => false

/-- Whether anything in a text would be substituted.  A backslash hides the character behind it. -/
def hasSubstitution : List Char → Bool
  | [] => false
  | '\\' :: _ :: rest => hasSubstitution rest
  | char :: rest => opensSubstitution (char :: rest) || hasSubstitution rest

theorem hasSubstitution_cons {char : Char} (notHiding : char ≠ '\\') (rest : List Char) :
    hasSubstitution (char :: rest) = (opensSubstitution (char :: rest) || hasSubstitution rest) := by
  rw [hasSubstitution]
  exact fun _ _ backslash => absurd backslash notHiding

/-- A character that neither hides another one nor starts a substitution does not count. -/
theorem hasSubstitution_plain {char : Char} (notHiding : char ≠ '\\') (notBracket : char ≠ '[')
    (notDollar : char ≠ '$') (rest : List Char) :
    hasSubstitution (char :: rest) = hasSubstitution rest := by
  have closed : opensSubstitution (char :: rest) = false := by
    unfold opensSubstitution
    split <;> simp_all
  rw [hasSubstitution_cons notHiding, closed, Bool.false_or]

/-- Within a text that does not go on with a name, a dollar sign is seen to start a variable or
not. -/
theorem opensSubstitution_dollar {inside after : List Char} (ends : startsVariable after = false) :
    opensSubstitution ('$' :: inside) = startsVariable (inside ++ after) := by
  cases inside with
  | nil => exact ends.symm
  | cons next inside =>
    simp [opensSubstitution, startsVariable, isNameChar, Bool.or_assoc]

/-! ## Backslash sequences -/

/-- Characters of a kind that has nothing to do with substitutions do not count. -/
theorem hasSubstitution_kind {kind : Char → Bool} (notHiding : kind '\\' = false)
    (notBracket : kind '[' = false) (notDollar : kind '$' = false) {front : List Char}
    (all : front.all kind = true) (inside : List Char) :
    hasSubstitution (front ++ inside) = hasSubstitution inside := by
  have unlike {char other : Char} (holds : kind char = true) (absent : kind other = false) :
      char ≠ other := by
    rintro rfl
    rw [absent] at holds
    cases holds
  induction front with
  | nil => rfl
  | cons char front ih =>
    obtain ⟨first, others⟩ := Bool.and_eq_true_iff.mp all
    rw [List.cons_append, hasSubstitution_plain (unlike first notHiding)
      (unlike first notBracket) (unlike first notDollar), ih others]

/-- What belongs to a backslash sequence behind its first character does not count. -/
theorem hasSubstitution_run (char : Char) (rest inside : List Char) :
    hasSubstitution (Backslash.run char rest ++ inside) = hasSubstitution inside := by
  have hex (count : Nat) :
      hasSubstitution (Backslash.leadingDigits Backslash.hexDigit? count rest ++ inside) =
        hasSubstitution inside :=
    hasSubstitution_kind (by decide) (by decide) (by decide)
      (Backslash.all_leadingDigits _ _ _) inside
  unfold Backslash.run
  split
  · exact hasSubstitution_kind (by decide) (by decide) (by decide) List.all_takeWhile inside
  · exact hex 2
  · exact hex 4
  · exact hex 8
  · split
    · exact hasSubstitution_kind (by decide) (by decide) (by decide)
        (Backslash.all_leadingDigits _ _ _) inside
    · rfl

/-- A backslash sequence leaves as much to be substituted as there was. -/
theorem hasSubstitution_decode {offset : Nat} {behind inside after : List Char}
    (goesOn : (Backslash.decode offset (behind ++ after)).2.rest = inside ++ after) :
    hasSubstitution ('\\' :: behind) = hasSubstitution inside := by
  cases behind with
  | nil =>
    have shorter := Backslash.decode_length_le offset ([] ++ after)
    rw [goesOn, List.nil_append, List.length_append] at shorter
    obtain rfl : inside = [] := List.eq_nil_of_length_eq_zero (by omega)
    rfl
  | cons hidden more =>
    rw [List.cons_append, Backslash.decode_cons] at goesOn
    change List.drop _ _ = _ at goesOn
    have split := List.prefix_iff_eq_append.mp (Backslash.prefix_run hidden (more ++ after))
    rw [goesOn, ← List.append_assoc] at split
    rw [← List.append_cancel_right split, hasSubstitution]
    exact hasSubstitution_run _ _ _

/-! ## Elements of words -/

section Elements

variable {inner : Substitution} {word offset : Nat} {state next read : WordState} {char : Char}
  {chars rest span inside after : List Char}

/-- What is read of a word starts at its first character, if anything is. -/
theorem exists_behind (starts : char :: rest = span ++ after)
    (goesOn : rest.length ≥ inside.length + after.length) :
    ∃ behind, span = char :: behind ∧ rest = behind ++ after := by
  cases span with
  | nil =>
    have length := congrArg List.length starts
    simp only [List.length_cons, List.nil_append] at length
    omega
  | cons first behind =>
    obtain ⟨rfl, rfl⟩ := List.cons.inj starts
    exact ⟨behind, rfl, rfl⟩

/-- An element of a word with nothing substituted yet either is a substitution itself, or leaves as
much to be substituted as there was. -/
theorem readElement_classified (literal : state.literal = true)
    (done : (readElement inner word state offset char rest).outcome = .ok next)
    (starts : char :: rest = span ++ after)
    (goesOn : (readElement inner word state offset char rest).cursor.rest = inside ++ after)
    (ends : startsVariable after = false) :
    (next.literal = true ∧ hasSubstitution span = hasSubstitution inside) ∨
      (next.literal = false ∧ hasSubstitution span = true) := by
  have shorter := readElement_length_le inner word state offset char rest
  rw [goesOn, List.length_append] at shorter
  obtain ⟨behind, rfl, rfl⟩ := exists_behind starts shorter
  -- A substitution is seen at its first character, whatever it goes on with.
  have substituted {outcome : Except ParseError Unit} (notHiding : char ≠ '\\')
      (opens : opensSubstitution (char :: behind) = true)
      (done : outcome.map (fun () => { state with literal := false }) = .ok next) :
      next.literal = false ∧ hasSubstitution (char :: behind) = true := by
    rw [hasSubstitution_cons notHiding, opens, Bool.true_or]
    cases outcome with
    | error error => cases done
    | ok =>
      cases done
      exact ⟨rfl, rfl⟩
  unfold readElement at done goesOn
  by_cases backslash : (char == '\\') = true
  · rw [if_pos backslash] at done goesOn
    cases eq_of_beq backslash
    cases done
    exact .inl ⟨literal, hasSubstitution_decode goesOn⟩
  · rw [if_neg backslash] at done goesOn
    have notHiding : char ≠ '\\' := by simpa using backslash
    split at done
    · rename_i named
      obtain ⟨dollar, opens⟩ := Bool.and_eq_true_iff.mp named
      cases eq_of_beq dollar
      rw [← opensSubstitution_dollar ends] at opens
      exact .inr (substituted notHiding opens done)
    · rename_i notNamed
      rw [if_neg notNamed] at goesOn
      split at done
      · rename_i bracket
        cases eq_of_beq bracket
        exact .inr (substituted notHiding rfl done)
      · rename_i notBracket
        rw [if_neg notBracket] at goesOn
        have closed : opensSubstitution (char :: behind) = false := by
          by_cases dollar : char = '$'
          · subst dollar
            rw [opensSubstitution_dollar ends]
            simpa using notNamed
          · unfold opensSubstitution
            split <;> simp_all
        cases done
        rw [← List.append_cancel_right goesOn, hasSubstitution_cons notHiding, closed,
          Bool.false_or]
        exact .inl ⟨literal, rfl⟩

/-- What is read of a word is literal if nothing in it is substituted, provided that this is so behind
its first element. -/
theorem readElement_onwards (literal : state.literal = true)
    (found : (readElement inner word state offset char rest).outcome = .ok next)
    (starts : char :: rest = span ++ after) (ends : startsVariable after = false)
    (onwards : after <:+ (readElement inner word state offset char rest).cursor.rest)
    (kept : read.literal = true → next.literal = true)
    (later : ∀ inside, next.literal = true →
      (readElement inner word state offset char rest).cursor.rest = inside ++ after →
      read.literal = !hasSubstitution inside) :
    read.literal = !hasSubstitution span := by
  obtain ⟨inside, goesOn⟩ := onwards
  rcases readElement_classified literal found starts goesOn.symm ends with
    ⟨stillLiteral, same⟩ | ⟨notLiteral, substituted⟩
  · rw [same, later inside stillLiteral goesOn.symm]
  · rw [substituted, Bool.not_true, Bool.eq_false_iff]
    intro readLiteral
    rw [kept readLiteral] at notLiteral
    cases notLiteral

/-- The elements of a quoted word make it literal if nothing in them is substituted. -/
theorem readQuoted_classified (moves : inner.MovesOn) (literal : state.literal = true)
    (closed : (readQuoted inner word state offset chars).outcome = .ok read)
    (starts : chars = span ++ (readQuoted inner word state offset chars).cursor.rest) :
    read.literal = !hasSubstitution span := by
  have ends : startsVariable (readQuoted inner word state offset chars).cursor.rest = false := by
    obtain ⟨rest, stops⟩ := readQuoted_closed closed
    rw [stops]
    rfl
  fun_induction readQuoted inner word state offset chars generalizing span with
  | case1 => cases closed
  | case2 state offset char rest =>
    obtain rfl : span = [] := List.self_eq_append_left.mp starts
    cases closed
    exact literal
  | case3 => cases closed
  | case4 state offset char rest _ element next found =>
    rename_i ih
    exact readElement_onwards literal found starts ends
      (leads_readQuoted moves word next element.cursor.offset element.cursor.rest).suffix
      (fun last => (readQuoted_grows closed last).1)
      fun inside stillLiteral goesOn => ih stillLiteral closed goesOn ends

/-- The parser stands at the end of a bare word that it has read. -/
theorem readBare_ended {terminator : Option Char}
    (ended : (readBare inner terminator word state offset chars).outcome = .ok read) :
    isWordEnd terminator (readBare inner terminator word state offset chars).cursor.rest =
      true := by
  fun_induction readBare inner terminator word state offset chars with
  | case1 state offset chars stops => exact stops
  | case2 => rfl
  | case3 => cases ended
  | case4 state offset char rest element next found _ ih => exact ih ended

/-- What ends a word by itself does not belong to the name of a variable. -/
theorem startsVariable_of_wordEnd (ends : isWordEnd none chars = true) :
    startsVariable chars = false := by
  unfold isWordEnd at ends
  split at ends
  · rfl
  · rfl
  · simp only [isBlank, Bool.or_eq_true, beq_iff_eq] at ends
    rcases ends with ((((((rfl | rfl) | rfl) | rfl) | rfl) | rfl) | rfl) | none
    all_goals first | rfl | cases none

/-- The elements of a bare word make it literal if nothing in them is substituted. -/
theorem readBare_classified (moves : inner.MovesOn) (literal : state.literal = true)
    (ended : (readBare inner none word state offset chars).outcome = .ok read)
    (starts : chars = span ++ (readBare inner none word state offset chars).cursor.rest) :
    read.literal = !hasSubstitution span := by
  have ends := startsVariable_of_wordEnd (readBare_ended ended)
  fun_induction readBare inner none word state offset chars generalizing span with
  | case1 state offset chars =>
    obtain rfl : span = [] := List.self_eq_append_left.mp starts
    cases ended
    exact literal
  | case2 state offset =>
    obtain rfl : span = [] := List.self_eq_append_left.mp starts
    cases ended
    exact literal
  | case3 => cases ended
  | case4 state offset char rest element next found _ =>
    rename_i ih
    exact readElement_onwards literal found starts ends
      (leads_readBare moves none word next element.cursor.offset element.cursor.rest).suffix
      (fun last => (readBare_grows ended last).1)
      fun inside stillLiteral goesOn => ih stillLiteral ended goesOn ends

end Elements

/-! ## Words -/

/-- A word with substitutions is not literal, and then its value is its text. -/
structure Word.Substitutes (word : Word) (text : List Char) : Prop where
  literal : word.literal = false ↔ hasSubstitution text = true
  value : word.literal = false → word.value = String.ofList text

/-- What the source text of a word tells of it: in a bare word all of the text counts, in a quoted
word what stands between the quotes. -/
def Word.Classified (word : Word) (span : List Char) : Prop :=
  match word.form with
  | .bare => word.Substitutes span
  | .quoted => ∃ inside, span = '"' :: (inside ++ ['"']) ∧ word.Substitutes inside
  | .braced => word.literal = true
  | .expanded => word.literal = false ∧ word.value = String.ofList span

section Words

variable {inner : Substitution} {terminator : Option Char} {offset : Nat}
  {chars rest span : List Char} {word : Word} {stop : Cursor}

/-- The text between two positions is what is passed on the way. -/
theorem textTo_passed (leads : Leads ⟨offset, chars⟩ stop) (starts : chars = span ++ stop.rest) :
    textTo ⟨offset, chars⟩ stop = String.ofList span := by
  obtain ⟨passed, split, ends⟩ := leads
  obtain rfl : span = passed := List.append_cancel_right (starts.symm.trans split)
  exact textTo_eq split ends

theorem parseBraced_classified
    (found : (parseBraced terminator offset chars).outcome = .ok word) :
    word.Classified span := by
  unfold parseBraced at found
  simp only at found
  split at found
  · cases found
  · cases endDelimited_ok found
    exact rfl

theorem parseQuoted_classified (moves : inner.MovesOn)
    (found : (parseQuoted inner terminator offset chars).outcome = .ok word)
    (starts : '"' :: chars = span ++ (parseQuoted inner terminator offset chars).cursor.rest) :
    word.Classified span := by
  have onwards := leads_readQuoted moves offset ⟨[], true⟩ (offset + 1) chars
  unfold parseQuoted at found starts
  simp only at found starts
  split at found
  · cases found
  · rename_i state closed
    obtain ⟨inside, split⟩ := onwards.suffix
    change inside ++ _ = chars at split
    obtain ⟨behind, stops⟩ := readQuoted_closed closed
    -- What is read between the quotes stops in front of the closing one, and the word behind it.
    have whole : span = '"' :: (inside ++ ['"']) := by
      rw [closed] at starts
      simp only [endDelimited_cursor, stops, List.drop_succ_cons, List.drop_zero] at starts
      rw [stops] at split
      have same : span ++ behind = '"' :: (inside ++ ['"']) ++ behind := by
        rw [← starts, ← split, List.cons_append, List.append_assoc]
        rfl
      exact List.append_cancel_right same
    have literal := readQuoted_classified moves rfl closed split.symm
    cases endDelimited_ok found
    refine ⟨inside, whole, ?_, fun notLiteral => ?_⟩
    · simp [literal]
    · change state.literal = false at notLiteral
      simp only [notLiteral]
      exact textTo_passed onwards split.symm

theorem parseBare_classified (moves : inner.MovesOn)
    (found : (parseBare inner none offset chars).outcome = .ok word)
    (starts : chars = span ++ (parseBare inner none offset chars).cursor.rest) :
    word.Classified span := by
  have onwards := leads_readBare moves none offset ⟨[], true⟩ offset chars
  unfold parseBare at found starts
  simp only at found starts
  split at found
  · cases found
  · rename_i state ended
    rw [ended] at starts
    have literal := readBare_classified moves rfl ended starts
    cases found
    refine ⟨?_, fun notLiteral => ?_⟩
    · simp [literal]
    · change state.literal = false at notLiteral
      simp only [notLiteral]
      exact textTo_passed onwards starts

/-- A word that is found is classified by the text that is passed in reading it. -/
theorem parseWord_classified (moves : inner.MovesOn)
    (found : (parseWord inner none offset chars).outcome = .ok word)
    (starts : chars = span ++ (parseWord inner none offset chars).cursor.rest) :
    word.Classified span := by
  have onwards := leads_parseWord moves none offset chars
  revert found starts onwards
  unfold parseWord
  split
  · split
    · exact fun found _ _ => parseBraced_classified found
    · intro found starts onwards
      simp only at found starts onwards
      split at found
      · cases found
      · rename_i expanded read
        rw [read] at starts onwards
        cases found
        exact ⟨rfl, textTo_passed onwards starts⟩
  · exact fun found _ _ => parseBraced_classified found
  · exact fun found starts _ => parseQuoted_classified moves found starts
  · exact fun found starts _ => parseBare_classified moves found starts

end Words

/-! ## The words of a script -/

/-- The source text of a word in a script: it stands at the offset of the word, and it is what the
parser passes in reading the word there. -/
def Word.SpansIn (word : Word) (script : String) (span : List Char) : Prop :=
  ∃ before after, script.toList = before ++ (span ++ after) ∧ octets before = word.offset ∧
    parseWord (.within (span ++ after).length) none word.offset (span ++ after) =
      ⟨.ok word, ⟨word.offset + octets span, after⟩⟩

/-- Two texts that start in the same way are the same up to any offset. -/
theorem eq_of_octets {front other behind rest : List Char}
    (same : front ++ behind = other ++ rest) (sizes : octets front = octets other) :
    front = other := by
  have nothing {more : List Char} (empty : octets more = 0) : more = [] := by
    have length := length_le_octets more
    exact List.eq_nil_of_length_eq_zero (by omega)
  rcases List.append_eq_append_iff.mp same with ⟨more, rfl, -⟩ | ⟨more, rfl, -⟩
  · rw [octets_append] at sizes
    obtain rfl : more = [] := nothing (by omega)
    exact (List.append_nil front).symm
  · rw [octets_append] at sizes
    obtain rfl : more = [] := nothing (by omega)
    exact List.append_nil other

/-- A word has no more than one source text. -/
theorem Word.SpansIn.unique {word : Word} {script : String} {span other : List Char}
    (spans : word.SpansIn script span) (others : word.SpansIn script other) : other = span := by
  obtain ⟨before, after, split, stands, read⟩ := spans
  obtain ⟨front, behind, splitToo, standsToo, readToo⟩ := others
  obtain rfl : before = front :=
    eq_of_octets (split.symm.trans splitToo) (stands.trans standsToo.symm)
  have same : span ++ after = other ++ behind :=
    List.append_cancel_left (split.symm.trans splitToo)
  rw [same, readToo] at read
  have stop : (⟨word.offset + octets other, behind⟩ : Cursor) = ⟨word.offset + octets span, after⟩ :=
    congrArg Parsed.cursor read
  obtain rfl : behind = after := congrArg Cursor.rest stop
  exact (List.append_cancel_right same).symm

/-- As many levels of substitutions as there are characters are enough to read a word. -/
theorem parseWord_within {levels : Nat} {chars : List Char} (enough : chars.length ≤ levels)
    (terminator : Option Char) (offset : Nat) :
    parseWord (.within chars.length) terminator offset chars =
      parseWord (.within levels) terminator offset chars := by
  have unmoved (parsed : Parsed Word) : parsed.displace (Word.displace 0) 0 = parsed := by
    rcases parsed with ⟨error | word, cursor⟩
    · cases error <;> rfl
    · rfl
  have same : (Substitution.within levels).Displaced 0 chars.length (.within chars.length) :=
    Substitution.displaced_within enough (Nat.le_refl _)
  rw [← unmoved (parseWord (.within levels) terminator offset chars)]
  exact parseWord_displace same terminator offset (Nat.le_refl _)

/-- A word that is read in front of a position of a script has a source text there. -/
theorem Word.ReadIn.exists_spansIn {word : Word} {script : String} {levels : Nat}
    {start stop : Cursor} (read : word.ReadIn (.within levels) none start stop)
    (enough : start.rest.length ≤ levels) (reached : (Cursor.start script).Leads start) :
    ∃ span, word.SpansIn script span := by
  obtain ⟨⟨offset, chars⟩, onwards, found, -⟩ := read
  have shorter : chars.length ≤ start.rest.length := onwards.suffix.length_le
  rw [← parseWord_within (Nat.le_trans shorter enough)] at found
  obtain rfl : word.offset = offset := parseWord_offset found
  obtain ⟨before, split, stands⟩ := reached.trans onwards
  obtain ⟨span, passed, stops⟩ :=
    leads_parseWord (Substitution.movesOn_within chars.length) none word.offset chars
  generalize parsing : parseWord (.within chars.length) none word.offset chars = parsed
    at found passed stops
  obtain ⟨outcome, here, after⟩ := parsed
  cases found
  obtain rfl : here = word.offset + octets span := stops
  obtain rfl : chars = span ++ after := passed
  exact ⟨span, before, after, split, (stands.trans (Nat.zero_add _)).symm, parsing⟩

theorem Word.SpansIn.classified {word : Word} {script : String} {span : List Char}
    (spans : word.SpansIn script span) : word.Classified span := by
  obtain ⟨before, after, -, -, read⟩ := spans
  refine parseWord_classified (Substitution.movesOn_within _) (congrArg Parsed.outcome read) ?_
  rw [read]

/-- **A word is literal exactly if nothing in it would be substituted.**  Every word that a call for
the next command finds, whatever calls there were before, has one source text in the script.  A bare
or quoted word is literal unless a substitution starts in this text, read from left to right with
the character behind a backslash skipped.  A braced word is always literal, and a word that is
expanded never is.  The value of a word that is not literal is its source text. -/
theorem literal_iff_nothing_substituted {script : String} {calls : Nat} {command : Command}
    {word : Word}
    (found : (nextCommand (standsAfter calls (.start script))).outcome = .ok (some command))
    (listed : word ∈ command.words) :
    ∃ span, (∀ other, word.SpansIn script other ↔ other = span) ∧ word.Classified span := by
  have reads := parseCommand_readIn (Substitution.movesOn_within _) found word listed
  obtain ⟨span, spans⟩ := reads.exists_spansIn (Nat.le_refl _) (leads_standsAfter calls _)
  refine ⟨span, fun other => ⟨spans.unique, ?_⟩, spans.classified⟩
  rintro rfl
  exact spans

/-- The bracket behind the backslash is hidden, and the dollar sign behind it is not. -/
theorem literal_iff_nothing_substituted_hiding :
    ∃ command word, (nextCommand (standsAfter 0 (.start "puts \"\\[$x\""))).outcome =
        .ok (some command) ∧
      word ∈ command.words ∧ word.form = .quoted ∧ word.literal = false ∧
      ∃ span, (∀ other, word.SpansIn "puts \"\\[$x\"" other ↔ other = span) ∧
        word.Classified span := by
  have words : (nextCommand (standsAfter 0 (.start "puts \"\\[$x\""))).outcome.toOption =
      some (some ⟨[⟨"puts", true, .bare, 0⟩, ⟨"\\[$x", false, .quoted, 5⟩], 0⟩) := by
    decide +kernel
  cases found : (nextCommand (standsAfter 0 (.start "puts \"\\[$x\""))).outcome with
  | error error =>
    rw [found] at words
    cases words
  | ok command =>
    rw [found] at words
    cases words
    have listed : (⟨"\\[$x", false, .quoted, 5⟩ : Word) ∈
        [⟨"puts", true, .bare, 0⟩, ⟨"\\[$x", false, .quoted, 5⟩] := by decide
    exact ⟨_, _, rfl, listed, rfl, rfl, literal_iff_nothing_substituted found listed⟩

end CompiledScript
