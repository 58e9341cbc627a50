import CompiledScript.Proofs.Script.Movement

/-!
# Where words and commands stand

The words of a command stand one behind the other, the first where the command starts,
and all of them in front of where the parser stands afterwards, so what the next call
finds stands behind them.  A braced word stands in front of its content, of which its
value is what joining the continued lines leaves.
-/

set_option autoImplicit false

namespace CompiledScript

open Cursor

/-! ## The order of the words -/

/-- The words stand one behind the other, from `start` on and in front of `stop`. -/
structure Word.Ascend (words : List Word) (start stop : Nat) : Prop where
  ordered : (words.map Word.offset).Pairwise (· < ·)
  between : ∀ word ∈ words, start ≤ word.offset ∧ word.offset < stop

namespace Word.Ascend

variable {words : List Word} {word : Word} {start middle stop : Nat}

theorem nil (start stop : Nat) : Ascend [] start stop where
  ordered := List.Pairwise.nil
  between _ listed := nomatch listed

theorem cons (later : Ascend words middle stop) (before : word.offset < middle)
    (inside : middle ≤ stop) : Ascend (word :: words) word.offset stop where
  ordered := by
    rw [List.map_cons, List.pairwise_cons]
    refine ⟨?_, later.ordered⟩
    intro offset listed
    obtain ⟨other, found, rfl⟩ := List.mem_map.mp listed
    exact Nat.lt_of_lt_of_le before (later.between other found).1
  between other listed := by
    rcases List.mem_cons.mp listed with rfl | found
    · exact ⟨Nat.le_refl _, Nat.lt_of_lt_of_le before inside⟩
    · have bounds := later.between other found
      omega

theorem earlier (ascend : Ascend words middle stop) (before : start ≤ middle) :
    Ascend words start stop where
  ordered := ascend.ordered
  between word listed := by
    have bounds := ascend.between word listed
    omega

end Word.Ascend

theorem endDelimited_ok {terminator : Option Char} {after : Delimiter} {word ended : Word}
    {cursor : Cursor} (done : (endDelimited terminator after word cursor).outcome = .ok ended) :
    ended = word := by
  unfold endDelimited at done
  split at done
  · cases done
    rfl
  · cases done

/-- A word that is found stands where it was looked for. -/
theorem parseWord_offset {inner : Substitution} {terminator : Option Char} {offset : Nat}
    {chars : List Char} {word : Word}
    (found : (parseWord inner terminator offset chars).outcome = .ok word) :
    word.offset = offset := by
  have braced {rest : List Char} (found : (parseBraced terminator offset rest).outcome = .ok word) :
      word.offset = offset := by
    unfold parseBraced at found
    simp only at found
    split at found
    · cases found
    · rw [endDelimited_ok found]
  unfold parseWord at found
  split at found
  · split at found
    · exact braced found
    · simp only at found
      split at found
      · cases found
      · cases found
        rfl
  · exact braced found
  · unfold parseQuoted at found
    simp only at found
    split at found
    · cases found
    · rw [endDelimited_ok found]
  · unfold parseBare at found
    simp only at found
    split at found
    · cases found
    · cases found
      rfl

/-- The words that are found in front of the end of a command stand between where they were looked
for and where the parser stands then. -/
theorem parseWords_found {inner : Substitution} (moves : inner.MovesOn) {terminator : Option Char}
    {words all : List Word} {offset : Nat} {chars : List Char}
    (done : (parseWords inner terminator words offset chars).outcome = .ok all) :
    ∃ found, all = words.reverse ++ found ∧
      Word.Ascend found (skipBlanks offset chars).offset
        (parseWords inner terminator words offset chars).cursor.offset ∧
      (isCommandEnd terminator (skipBlanks offset chars).rest = false →
        ∃ first others, found = first :: others ∧
          first.offset = (skipBlanks offset chars).offset) := by
  fun_induction parseWords inner terminator words offset chars with
  | case1 words offset chars here ended =>
    cases done
    exact ⟨[], (List.append_nil _).symm, .nil _ _, fun inside => absurd ended (by simpa using inside)⟩
  | case2 => cases done
  | case3 words offset chars here ended parsed word read ih =>
    obtain ⟨found, split, ascend, -⟩ := ih done
    have here_eq : word.offset = here.offset := parseWord_offset read
    have shorter : parsed.cursor.rest.length < here.rest.length :=
      (parseWord_length inner terminator here.offset here.rest).2
        (isWordEnd_skipBlanks terminator offset chars (by simpa using ended))
    have before : here.offset < parsed.cursor.offset :=
      (leads_parseWord moves terminator here.offset here.rest).offset_lt shorter
    have blanks : parsed.cursor.offset ≤ (skipBlanks parsed.cursor.offset parsed.cursor.rest).offset :=
      (leads_skipBlanks parsed.cursor.offset parsed.cursor.rest).offset_le
    have behind : parsed.cursor.offset ≤
        (parseWords inner terminator (word :: words) parsed.cursor.offset
          parsed.cursor.rest).cursor.offset :=
      (leads_parseWords moves terminator (word :: words) _ parsed.cursor.rest).offset_le
    refine ⟨word :: found, ?_, ?_, fun _ => ⟨word, found, rfl, here_eq⟩⟩
    · rw [split, List.reverse_cons, List.append_assoc]
      rfl
    · have later := (ascend.earlier blanks).cons (here_eq ▸ before) behind
      rwa [here_eq] at later

/-- Where a command is expected, no blanks are left to be skipped. -/
theorem skipBlanks_skipGap_eq (terminator : Option Char) (inComment : Bool) (offset : Nat)
    (chars : List Char) :
    let here := skipGap terminator inComment offset chars
    here.rest.head? ≠ terminator → skipBlanks here.offset here.rest = here := by
  fun_induction skipGap terminator inComment offset chars <;> simp_all [skipBlanks, isBlank]

/-- A command that is found has a first word, which stands where the command does, and its words
stand between where the command was looked for and where the parser stands then. -/
theorem parseCommand_found {inner : Substitution} (moves : inner.MovesOn)
    {terminator : Option Char} {cursor : Cursor} {command : Command}
    (found : (parseCommand inner terminator cursor).outcome = .ok (some command)) :
    (∃ first others, command.words = first :: others ∧ command.offset = first.offset) ∧
      Word.Ascend command.words cursor.offset
        (parseCommand inner terminator cursor).cursor.offset := by
  have gap := leads_skipGap terminator false cursor.offset cursor.rest
  unfold parseCommand at found ⊢
  simp only at found ⊢
  split at found
  · cases found
  · rename_i inside
    rw [if_neg inside]
    rw [not_or] at inside
    cases read : (parseWords inner terminator []
        (skipGap terminator false cursor.offset cursor.rest).offset
        (skipGap terminator false cursor.offset cursor.rest).rest).outcome with
    | error error =>
      rw [read] at found
      cases found
    | ok words =>
      rw [read] at found
      cases found
      obtain ⟨listed, split, ascend, nonempty⟩ := parseWords_found moves read
      obtain ⟨first, others, starts, stands⟩ :=
        nonempty (skipBlanks_skipGap terminator cursor.offset cursor.rest false inside.1 inside.2)
      rw [skipBlanks_skipGap_eq terminator false cursor.offset cursor.rest inside.2]
        at ascend stands
      cases split
      exact ⟨⟨first, others, starts, stands.symm⟩, ascend.earlier gap.offset_le⟩

/-- If there is no further command in a script, the parser stands at its end. -/
theorem nextCommand_none {cursor : Cursor} (none : (nextCommand cursor).outcome = .ok none) :
    (nextCommand cursor).cursor.rest = [] := by
  unfold nextCommand parseCommand at none ⊢
  simp only at none ⊢
  split at none
  · rename_i ended
    rw [if_pos ended]
    rcases ended with ended | ended
    · exact ended
    · exact List.head?_eq_none_iff.mp ended
  · cases read : (parseWords (.within cursor.rest.length) Option.none []
        (skipGap Option.none false cursor.offset cursor.rest).offset
        (skipGap Option.none false cursor.offset cursor.rest).rest).outcome <;>
      rw [read] at none <;> cases none

/-! ## Where the words of a command are read -/

/-- A word is what the parser finds in front of some position on the way from one to another. -/
def Word.ReadIn (word : Word) (inner : Substitution) (terminator : Option Char)
    (start stop : Cursor) : Prop :=
  ∃ here, start.Leads here ∧
    (parseWord inner terminator here.offset here.rest).outcome = .ok word ∧
    (parseWord inner terminator here.offset here.rest).cursor.Leads stop

theorem parseWords_readIn {inner : Substitution} (moves : inner.MovesOn)
    {terminator : Option Char} {words all : List Word} {offset : Nat} {chars : List Char}
    (done : (parseWords inner terminator words offset chars).outcome = .ok all) :
    ∀ word ∈ all, word ∈ words ∨ word.ReadIn inner terminator ⟨offset, chars⟩
      (parseWords inner terminator words offset chars).cursor := by
  fun_induction parseWords inner terminator words offset chars with
  | case1 words offset chars =>
    cases done
    exact fun word listed => .inl (List.mem_reverse.mp listed)
  | case2 => cases done
  | case3 words offset chars here inside parsed read found ih =>
    intro word listed
    have blanks := leads_skipBlanks offset chars
    rcases ih done word listed with earlier | ⟨there, onwards, later⟩
    · rcases List.mem_cons.mp earlier with rfl | earlier
      · exact .inr ⟨here, blanks, found, leads_parseWords moves terminator _ _ _⟩
      · exact .inl earlier
    · have passed := leads_parseWord moves terminator here.offset here.rest
      exact .inr ⟨there, blanks.trans (passed.trans onwards), later⟩

/-- The words of a command are read one by one on the way over it. -/
theorem parseCommand_readIn {inner : Substitution} (moves : inner.MovesOn)
    {terminator : Option Char} {cursor : Cursor} {command : Command}
    (found : (parseCommand inner terminator cursor).outcome = .ok (some command)) :
    ∀ word ∈ command.words, word.ReadIn inner terminator cursor
      (parseCommand inner terminator cursor).cursor := by
  have gap := leads_skipGap terminator false cursor.offset cursor.rest
  unfold parseCommand at found ⊢
  simp only at found ⊢
  split at found
  · cases found
  · rename_i inside
    rw [if_neg inside]
    cases read : (parseWords inner terminator []
        (skipGap terminator false cursor.offset cursor.rest).offset
        (skipGap terminator false cursor.offset cursor.rest).rest).outcome with
    | error error =>
      rw [read] at found
      cases found
    | ok words =>
      rw [read] at found
      cases found
      intro word listed
      rcases parseWords_readIn moves read word listed with none | ⟨here, onwards, reads⟩
      · cases none
      · exact ⟨here, gap.trans onwards, reads⟩

/-! ## Braced words and commands in a script -/

/-- A braced word stands at its opening brace, and its value is what is left of its content when the
continued lines are joined. -/
def Word.BracedIn (word : Word) (cursor : Cursor) : Prop :=
  ∃ rest content, cursor.Leads ⟨word.offset, '{' :: rest⟩ ∧
    (readBraced word.offset 0 [] (word.offset + 1) rest).outcome = .ok content ∧
    word.value = String.ofList (Backslash.collapse content.reverse)

theorem Word.BracedIn.earlier {word : Word} {start cursor : Cursor}
    (braced : word.BracedIn cursor) (leads : start.Leads cursor) : word.BracedIn start := by
  obtain ⟨rest, content, onwards, read, value⟩ := braced
  exact ⟨rest, content, leads.trans onwards, read, value⟩

theorem parseBraced_bracedIn {terminator : Option Char} {offset : Nat} {rest : List Char}
    {word : Word} (found : (parseBraced terminator offset rest).outcome = .ok word) :
    word.BracedIn ⟨offset, '{' :: rest⟩ := by
  unfold parseBraced at found
  simp only at found
  split at found
  · cases found
  · rename_i content read
    cases endDelimited_ok found
    exact ⟨rest, content, .refl _, read, rfl⟩

theorem parseWord_bracedIn {inner : Substitution} {terminator : Option Char} {offset : Nat}
    {chars : List Char} {word : Word}
    (found : (parseWord inner terminator offset chars).outcome = .ok word)
    (form : word.form = .braced) : word.BracedIn ⟨offset, chars⟩ := by
  unfold parseWord at found
  split at found
  · split at found
    · exact parseBraced_bracedIn found
    · simp only at found
      split at found
      · cases found
      · cases found
        cases form
  · exact parseBraced_bracedIn found
  · unfold parseQuoted at found
    simp only at found
    split at found
    · cases found
    · cases endDelimited_ok found
      cases form
  · unfold parseBare at found
    simp only at found
    split at found
    · cases found
    · cases found
      cases form

/-- Where no blanks are skipped, there is none. -/
theorem not_blank {offset : Nat} {char : Char} {rest : List Char}
    (stays : (skipBlanks offset (char :: rest)).rest = char :: rest) : isBlank char = false := by
  rw [Bool.eq_false_iff]
  intro blank
  have notHidden : ∀ behind, char = '\\' → rest = '\n' :: behind → False := by
    rintro behind rfl -
    cases blank
  have length := skipBlanks_length_le (offset + 1) rest
  rw [skipBlanks, if_pos blank] at stays
  · rw [stays, List.length_cons] at length
    omega
  · exact notHidden

/-- A command stands in the text in front of the parser, at its first character, and so do its braced
words. -/
structure Command.In (command : Command) (cursor : Cursor) : Prop where
  stands : ∃ char rest, cursor.Leads ⟨command.offset, char :: rest⟩ ∧ isBlank char = false
  braced : ∀ word ∈ command.words, word.form = .braced → word.BracedIn cursor

theorem parseCommand_in {inner : Substitution} (moves : inner.MovesOn)
    {terminator : Option Char} {cursor : Cursor} {command : Command}
    (found : (parseCommand inner terminator cursor).outcome = .ok (some command)) :
    command.In cursor := by
  refine ⟨?_, fun word listed form => ?_⟩
  · have gap := leads_skipGap terminator false cursor.offset cursor.rest
    unfold parseCommand at found
    simp only at found
    split at found
    · cases found
    · rename_i inside
      rw [not_or] at inside
      obtain ⟨char, rest, more⟩ := List.exists_cons_of_ne_nil inside.1
      have noBlanks := skipBlanks_skipGap_eq terminator false cursor.offset cursor.rest inside.2
      have stands : command.offset = (skipGap terminator false cursor.offset cursor.rest).offset := by
        cases read : (parseWords inner terminator []
            (skipGap terminator false cursor.offset cursor.rest).offset
            (skipGap terminator false cursor.offset cursor.rest).rest).outcome <;>
          rw [read] at found <;> cases found
        rfl
      rw [more] at noBlanks
      exact ⟨char, rest, stands ▸ more ▸ gap,
        not_blank (congrArg Cursor.rest noBlanks |>.trans more)⟩
  · obtain ⟨here, onwards, read, -⟩ := parseCommand_readIn moves found word listed
    exact (parseWord_bracedIn read form).earlier onwards

theorem commandsFrom_in {cursor : Cursor} {command : Command}
    (found : .ok command ∈ commandsFrom cursor) : command.In cursor := by
  fun_induction commandsFrom cursor with
  | case1 => simp at found
  | case2 => cases found
  | case3 cursor parsed first read ih =>
    rcases List.mem_cons.mp found with same | later
    · cases same
      exact parseCommand_in (Substitution.movesOn_within _) read
    · have onwards := leads_nextCommand cursor
      obtain ⟨⟨char, rest, stands, notBlank⟩, braced⟩ := ih later
      exact ⟨⟨char, rest, onwards.trans stands, notBlank⟩,
        fun word listed form => (braced word listed form).earlier onwards⟩

end CompiledScript
