import CompiledScript.Proofs.Script.Delimited
import CompiledScript.Proofs.Script.Locality

/-!
# Texts written as words

A list of texts can be written as a command and read back, whatever the texts are: each is
put between braces or between quotes, with a space between two of them.  Commands are put
together with a line end or a semicolon between two of them.

The parser stops a word in front of whatever may end one, so that the words of a command
are read one after the other, and in the same way whether or not a closing bracket would
end them too.  So what is written stands in a command substitution as well as by itself,
and is skipped there up to the bracket that was put behind it.
-/

set_option autoImplicit false

namespace CompiledScript

open Cursor

/-! ## What is written -/

/-- A text with the delimiters it is put between. -/
structure WrittenWord where
  text : String
  within : Delimiter
  /-- Braces are put around texts only that stand for themselves there. -/
  allowed : within = .brace → Braceable text.toList

/-- One text or more. -/
inductive WrittenCommand where
  | last (word : WrittenWord)
  | more (word : WrittenWord) (others : WrittenCommand)

/-- One command or more, and what separates them. -/
inductive WrittenScript where
  | last (command : WrittenCommand)
  | more (command : WrittenCommand) (separator : Char) (separates : Separates separator)
      (others : WrittenScript)

/-- How a word between delimiters is written. -/
def Delimiter.form : Delimiter → WordForm
  | brace => .braced
  | quote => .quoted

namespace WrittenWord

/-- The text between its delimiters. -/
def chars (word : WrittenWord) : List Char :=
  match word.within with
  | .brace => '{' :: (word.text.toList ++ ['}'])
  | .quote => '"' :: (word.text.toList.flatMap quote ++ ['"'])

/-- The word that is read back at an offset. -/
def readAt (word : WrittenWord) (offset : Nat) : Word :=
  ⟨word.text, true, word.within.form, offset⟩

end WrittenWord

namespace WrittenCommand

def words : WrittenCommand → List WrittenWord
  | last word => [word]
  | more word others => word :: others.words

/-- The words with a space between two of them. -/
def chars : WrittenCommand → List Char
  | last word => word.chars
  | more word others => word.chars ++ ' ' :: others.chars

/-- The words that are read back from an offset on. -/
def readAt : WrittenCommand → Nat → List Word
  | last word, offset => [word.readAt offset]
  | more word others, offset =>
    word.readAt offset :: others.readAt (offset + octets word.chars + 1)

end WrittenCommand

namespace WrittenScript

def commands : WrittenScript → List WrittenCommand
  | last command => [command]
  | more command _ _ others => command :: others.commands

/-- The commands with their separators between them. -/
def chars : WrittenScript → List Char
  | last command => command.chars
  | more command separator _ others => command.chars ++ separator :: others.chars

/-- The script as it is written. -/
def rendering (script : WrittenScript) : String := String.ofList script.chars

/-- The commands that are read back from an offset on. -/
def readAt : WrittenScript → Nat → List Command
  | last command, offset => [⟨command.readAt offset, offset⟩]
  | more command _ _ others, offset =>
    ⟨command.readAt offset, offset⟩ :: others.readAt (offset + octets command.chars + 1)

end WrittenScript

/-! ## Words -/

section Reading

variable (inner : Substitution) {terminator : Option Char} {rest : List Char}

theorem WrittenWord.parseWord_chars (word : WrittenWord) (ends : isWordEnd terminator rest = true)
    (offset : Nat) :
    parseWord inner terminator offset (word.chars ++ rest) =
      ⟨.ok (word.readAt offset), ⟨offset + octets word.chars, rest⟩⟩ := by
  obtain ⟨text, within, allowed⟩ := word
  cases within with
  | brace =>
    have read := parseWord_braceable inner (allowed rfl) ends offset
    have size : octets ('{' :: (text.toList ++ ['}'])) = 1 + octets text.toList + 1 := by
      rw [octets_cons, octets_append, ← Nat.add_assoc]
      rfl
    simp only [chars, readAt, List.cons_append, List.append_assoc, List.nil_append, read, size,
      String.ofList_toList, Delimiter.form, Nat.add_assoc]
  | quote =>
    have read := parseWord_quoted inner text.toList ends offset
    have size : octets ('"' :: (text.toList.flatMap quote ++ ['"'])) =
        1 + octets (text.toList.flatMap quote) + 1 := by
      rw [octets_cons, octets_append, ← Nat.add_assoc]
      rfl
    simp only [chars, readAt, List.cons_append, List.append_assoc, List.nil_append, read, size,
      String.ofList_toList, Delimiter.form, Nat.add_assoc]

/-- A word starts with its opening delimiter. -/
theorem WrittenWord.exists_chars (word : WrittenWord) :
    ∃ opening inside, word.chars = opening :: inside ∧ (opening = '{' ∨ opening = '"') := by
  obtain ⟨text, within, allowed⟩ := word
  cases within with
  | brace => exact ⟨'{', _, rfl, .inl rfl⟩
  | quote => exact ⟨'"', _, rfl, .inr rfl⟩

theorem WrittenCommand.exists_chars (command : WrittenCommand) :
    ∃ opening inside, command.chars = opening :: inside ∧ (opening = '{' ∨ opening = '"') := by
  cases command with
  | last word => exact word.exists_chars
  | more word others =>
    obtain ⟨opening, inside, starts, delimiter⟩ := word.exists_chars
    exact ⟨opening, inside ++ ' ' :: others.chars, by rw [chars, starts]; rfl, delimiter⟩

/-! ## Commands -/

/-- At most the closing bracket ends words and commands besides what always does. -/
def AtMostBracket (terminator : Option Char) : Prop := terminator = none ∨ terminator = some ']'

/-- Where a command starts, nothing is skipped, and no command ends. -/
theorem WrittenCommand.starts (bracket : AtMostBracket terminator) (command : WrittenCommand)
    (rest : List Char) (offset : Nat) :
    skipBlanks offset (command.chars ++ rest) = ⟨offset, command.chars ++ rest⟩ ∧
      skipGap terminator false offset (command.chars ++ rest) = ⟨offset, command.chars ++ rest⟩ ∧
      isCommandEnd terminator (command.chars ++ rest) = false := by
  obtain ⟨opening, inside, starts, delimiter⟩ := command.exists_chars
  rw [starts]
  rcases bracket with rfl | rfl <;> rcases delimiter with rfl | rfl <;> exact ⟨rfl, rfl, rfl⟩

/-- Where a command ends, so does a word, and no blanks are skipped. -/
theorem ends_of_commandEnd (bracket : AtMostBracket terminator)
    (ends : isCommandEnd terminator rest = true) (offset : Nat) :
    isWordEnd terminator rest = true ∧ skipBlanks offset rest = ⟨offset, rest⟩ := by
  cases rest with
  | nil => exact ⟨rfl, rfl⟩
  | cons char rest =>
    simp only [isCommandEnd, Bool.or_eq_true, beq_iff_eq] at ends
    rcases ends with (rfl | rfl) | rfl
    · exact ⟨rfl, rfl⟩
    · exact ⟨rfl, rfl⟩
    · rcases bracket with impossible | same
      · cases impossible
      · cases same
        exact ⟨rfl, rfl⟩

/-- Words are read up to where their command ends. -/
theorem parseWords_ended {words : List Word} {offset : Nat} {chars : List Char} {here : Cursor}
    (blanks : skipBlanks offset chars = here) (ends : isCommandEnd terminator here.rest = true) :
    parseWords inner terminator words offset chars = ⟨.ok words.reverse, here⟩ := by
  subst blanks
  rw [parseWords, dif_pos ends]

/-- A word that is found behind blanks is put to those that were read before. -/
theorem parseWords_found_word {words : List Word} {word : Word} {offset : Nat}
    {chars : List Char} {here next : Cursor} (blanks : skipBlanks offset chars = here)
    (inside : isCommandEnd terminator here.rest = false)
    (read : parseWord inner terminator here.offset here.rest = ⟨.ok word, next⟩) :
    parseWords inner terminator words offset chars =
      parseWords inner terminator (word :: words) next.offset next.rest := by
  subst blanks
  rw [parseWords, dif_neg (by simp [inside])]
  simp only [read]

theorem WrittenCommand.parseWords_chars (bracket : AtMostBracket terminator)
    (command : WrittenCommand) (ends : isCommandEnd terminator rest = true) (words : List Word)
    {offset start : Nat} {chars : List Char}
    (blanks : skipBlanks offset chars = ⟨start, command.chars ++ rest⟩) :
    parseWords inner terminator words offset chars =
      ⟨.ok (words.reverse ++ command.readAt start), ⟨start + octets command.chars, rest⟩⟩ := by
  have enters : isCommandEnd terminator (command.chars ++ rest) = false :=
    (command.starts bracket rest start).2.2
  -- A word is left in front of the space behind it, so the next ones are read from blanks on.
  induction command generalizing words offset start chars with
  | last word =>
    obtain ⟨wordEnds, stays⟩ := ends_of_commandEnd bracket ends (start + octets word.chars)
    have read := word.parseWord_chars inner wordEnds start
    rw [parseWords_found_word inner blanks enters read, parseWords_ended inner stays ends,
      List.reverse_cons]
    rfl
  | more word others ih =>
    have space : isWordEnd terminator (' ' :: (others.chars ++ rest)) = true := rfl
    have read := word.parseWord_chars inner space start
    have split : (more word others).chars ++ rest =
        word.chars ++ ' ' :: (others.chars ++ rest) := List.append_assoc ..
    obtain ⟨stays, -, inside⟩ := others.starts bracket rest
      (start + octets word.chars + 1)
    have behind : skipBlanks (start + octets word.chars) (' ' :: (others.chars ++ rest)) =
        ⟨start + octets word.chars + 1, others.chars ++ rest⟩ := stays
    have one : ' '.utf8Size = 1 := rfl
    rw [split] at blanks enters
    rw [parseWords_found_word inner blanks enters read, ih _ behind inside, List.reverse_cons,
      List.append_assoc, WrittenCommand.chars, octets_append, octets_cons, one]
    simp only [readAt, List.singleton_append, Nat.add_assoc]

/-- Where no command ends, a command starts. -/
theorem not_ended_of_inside {chars : List Char} (inside : isCommandEnd terminator chars = false) :
    ¬(chars = [] ∨ chars.head? = terminator) := by
  rintro (rfl | closing)
  · cases inside
  · cases chars with
    | nil => cases inside
    | cons char chars => simp [isCommandEnd, ← closing] at inside

/-- A command is read where it starts, behind nothing or a separator. -/
theorem WrittenCommand.parseCommand_chars (bracket : AtMostBracket terminator)
    (command : WrittenCommand) (ends : isCommandEnd terminator rest = true)
    {offset start : Nat} {chars : List Char}
    (gap : skipGap terminator false offset chars = ⟨start, command.chars ++ rest⟩) :
    parseCommand inner terminator ⟨offset, chars⟩ =
      ⟨.ok (some ⟨command.readAt start, start⟩), ⟨start + octets command.chars, rest⟩⟩ := by
  obtain ⟨stays, -, enters⟩ := command.starts bracket rest start
  have words := command.parseWords_chars inner bracket ends [] stays
  unfold parseCommand
  simp only [gap, if_neg (not_ended_of_inside enters), words]
  rfl

/-! ## Scripts -/

/-- A separator between two commands is skipped. -/
theorem skipGap_separator {separator : Char} (separates : Separates separator) (offset : Nat)
    (chars : List Char) :
    skipGap terminator false offset (separator :: chars) =
      skipGap terminator false (offset + 1) chars := by
  have plain : ∀ char rest, separator = '\\' → chars = char :: rest → False := by
    rintro char rest rfl
    rcases separates with impossible | impossible <;> cases impossible
  rw [skipGap.eq_3 _ _ _ _ _ plain]
  rcases separates with rfl | rfl <;> rfl

theorem isCommandEnd_separator {separator : Char} (separates : Separates separator)
    (chars : List Char) : isCommandEnd terminator (separator :: chars) = true := by
  rcases separates with rfl | rfl <;> rfl

theorem utf8Size_separator {separator : Char} (separates : Separates separator) :
    separator.utf8Size = 1 := by
  rcases separates with rfl | rfl <;> rfl

/-- A script starts with a command. -/
theorem WrittenScript.starts (bracket : AtMostBracket terminator) (script : WrittenScript)
    (rest : List Char) (offset : Nat) :
    skipGap terminator false offset (script.chars ++ rest) =
      ⟨offset, script.chars ++ rest⟩ := by
  cases script with
  | last command => exact (command.starts bracket _ offset).2.1
  | more command separator separates others =>
    rw [chars, List.append_assoc]
    exact (command.starts bracket _ offset).2.1

/-- What is written is skipped in a command substitution, up to the closing bracket behind it. -/
theorem WrittenScript.skipScript_chars (script : WrittenScript) (opening : Nat) {offset start : Nat}
    {chars : List Char}
    (gap : skipGap (some ']') false offset chars = ⟨start, script.chars ++ ']' :: rest⟩) :
    skipScript inner opening ⟨offset, chars⟩ =
      ⟨.ok (), ⟨start + octets script.chars + 1, rest⟩⟩ := by
  have bracket : AtMostBracket (some ']') := .inr rfl
  -- A command is left in front of its separator, which is skipped in looking for the next one.
  induction script generalizing offset start chars with
  | last command =>
    have ends : isCommandEnd (some ']') (']' :: rest) = true := rfl
    have found := command.parseCommand_chars inner bracket ends gap
    have closed : parseCommand inner (some ']') ⟨start + octets command.chars, ']' :: rest⟩ =
        ⟨.ok none, ⟨start + octets command.chars, ']' :: rest⟩⟩ := rfl
    rw [skipScript_of_command (by rw [found]), found,
      skipScript_closed (by rw [closed]) (by rw [closed]), closed]
    rfl
  | more command separator separates others ih =>
    have split : (more command separator separates others).chars ++ ']' :: rest =
        command.chars ++ separator :: (others.chars ++ ']' :: rest) := List.append_assoc ..
    rw [split] at gap
    have found := command.parseCommand_chars inner bracket
      (isCommandEnd_separator separates _) gap
    have behind : skipGap (some ']') false (start + octets command.chars)
        (separator :: (others.chars ++ ']' :: rest)) = _ :=
      (skipGap_separator separates _ _).trans (others.starts bracket _ _)
    rw [skipScript_of_command (by rw [found]), found, ih behind, WrittenScript.chars,
      octets_append, octets_cons, utf8Size_separator separates]
    simp only [Nat.add_assoc]

end Reading

/-- What is written is read back by itself. -/
theorem WrittenScript.commandsFrom_chars (script : WrittenScript) {offset start : Nat}
    {chars : List Char} (gap : skipGap none false offset chars = ⟨start, script.chars⟩) :
    commandsFrom ⟨offset, chars⟩ = (script.readAt start).map .ok := by
  have bracket : AtMostBracket none := .inl rfl
  induction script generalizing offset start chars with
  | last command =>
    have ends : isCommandEnd none [] = true := rfl
    rw [← List.append_nil (last command).chars] at gap
    have found : nextCommand ⟨offset, chars⟩ = _ :=
      command.parseCommand_chars (.within chars.length) bracket ends gap
    have ended : (nextCommand ⟨start + octets command.chars, []⟩).outcome = .ok none := rfl
    rw [commandsFrom_of_command (by rw [found]), found, commandsFrom_of_none ended]
    rfl
  | more command separator separates others ih =>
    have found : nextCommand ⟨offset, chars⟩ = _ :=
      command.parseCommand_chars (.within chars.length) bracket
        (isCommandEnd_separator separates _) gap
    have stays := others.starts bracket [] (start + octets command.chars + 1)
    rw [List.append_nil] at stays
    have behind : skipGap none false (start + octets command.chars)
        (separator :: others.chars) = _ := (skipGap_separator separates _ _).trans stays
    rw [commandsFrom_of_command (by rw [found]), found, ih behind]
    rfl

/-- Where all words up to the end of a script belong to one command, it is the only one. -/
theorem commandsFrom_single {chars : List Char} {words : List Word} {stop : Nat}
    (gap : skipGap none false 0 chars = ⟨0, chars⟩) (inside : isCommandEnd none chars = false)
    (read : parseWords (.within chars.length) none [] 0 chars = ⟨.ok words, ⟨stop, []⟩⟩) :
    commandsFrom ⟨0, chars⟩ = [.ok ⟨words, 0⟩] := by
  have found : nextCommand ⟨0, chars⟩ = ⟨.ok (some ⟨words, 0⟩), ⟨stop, []⟩⟩ := by
    unfold nextCommand parseCommand
    simp only [gap, if_neg (not_ended_of_inside inside), read]
    rfl
  have ended : (nextCommand ⟨stop, []⟩).outcome = .ok none := rfl
  rw [commandsFrom_of_command (by rw [found]), found, commandsFrom_of_none ended]

/-- The words that are read back are literal, and have the texts that were written as values. -/
theorem WrittenCommand.readAt_values (command : WrittenCommand) (offset : Nat) :
    (command.readAt offset).map (fun word => (word.value, word.literal)) =
      command.words.map fun word => (word.text, true) := by
  induction command generalizing offset with
  | last word => rfl
  | more word others ih => exact congrArg ((word.text, true) :: ·) (ih _)

theorem WrittenScript.readAt_values (script : WrittenScript) (offset : Nat) :
    (script.readAt offset).map
        (fun command => command.words.map fun word => (word.value, word.literal)) =
      script.commands.map fun command => command.words.map fun word => (word.text, true) := by
  induction script generalizing offset with
  | last command => exact congrArg ([·]) (command.readAt_values offset)
  | more command separator separates others ih =>
    exact congr (congrArg List.cons (command.readAt_values offset)) (ih _)

/-! ## Command substitutions -/

/-- A script as a command substitution. -/
def bracketed (inside : List Char) : List Char := '[' :: (inside ++ [']'])

/-- The word that a text of its own is, where something is substituted in it. -/
def substitutedWord (chars : List Char) : Word := ⟨String.ofList chars, false, .bare, 0⟩

section Bracketed

variable {inside : List Char}

theorem octets_bracketed : octets (bracketed inside) = 1 + octets inside + 1 := by
  rw [bracketed, octets_cons, octets_append, ← Nat.add_assoc]
  rfl

/-- A command substitution that is skipped to its end is a bare word. -/
theorem parseWord_bracketed {inner : Substitution}
    (skipped : inner.skip 0 ⟨1, inside ++ [']']⟩ = ⟨.ok (), ⟨octets (bracketed inside), []⟩⟩) :
    parseWord inner none 0 (bracketed inside) =
      ⟨.ok (substitutedWord (bracketed inside)), ⟨octets (bracketed inside), []⟩⟩ := by
  have element : readElement inner 0 ⟨[], true⟩ 0 '[' (inside ++ [']']) =
      ⟨.ok ⟨[], false⟩, ⟨octets (bracketed inside), []⟩⟩ := by
    simp only [readElement, Nat.zero_add, skipped]
    rfl
  have enters : ¬isWordEnd none ('[' :: (inside ++ [']'])) = true := Bool.false_ne_true
  have read : readBare inner none 0 ⟨[], true⟩ 0 (bracketed inside) =
      ⟨.ok ⟨[], false⟩, ⟨octets (bracketed inside), []⟩⟩ := by
    rw [bracketed, readBare, if_neg enters]
    simp only [element]
    rw [readBare.eq_def]
    rfl
  have text : textTo ⟨0, bracketed inside⟩ ⟨octets (bracketed inside), []⟩ =
      String.ofList (bracketed inside) :=
    textTo_eq (List.append_nil _).symm (Nat.zero_add _).symm
  have bare : parseWord inner none 0 (bracketed inside) =
      parseBare inner none 0 (bracketed inside) := by
    rw [parseWord.eq_def]
    rfl
  rw [bare, parseBare]
  simp only [read, text]
  rfl

/-- A script that is nothing but a command substitution is one command of one word. -/
theorem commandsFrom_bracketed
    (skipped : ∀ levels, skipScript (.within levels) 0 ⟨1, inside ++ [']']⟩ =
      ⟨.ok (), ⟨octets (bracketed inside), []⟩⟩) :
    commandsFrom ⟨0, bracketed inside⟩ =
      [.ok ⟨[substitutedWord (bracketed inside)], 0⟩] := by
  have word := parseWord_bracketed
    (show (Substitution.within (bracketed inside).length).skip 0 _ = _ from skipped _)
  have words : parseWords (.within (bracketed inside).length) none [] 0 (bracketed inside) =
      ⟨.ok [substitutedWord (bracketed inside)], ⟨octets (bracketed inside), []⟩⟩ := by
    have blanks : skipBlanks 0 (bracketed inside) = ⟨0, bracketed inside⟩ := rfl
    rw [parseWords_found_word _ blanks rfl word, parseWords_ended _ rfl rfl]
    rfl
  exact commandsFrom_single rfl rfl words

end Bracketed

/-- **Any texts can be written as words and read back.**  The parser finds the commands that were
written and no others, with all words literal and of just these texts.  Between brackets the same
script is one word of one command, which is bare and not literal, and its value is its own text. -/
theorem written_read_back (script : WrittenScript) :
    (∃ commands : List Command, parseScript script.rendering = commands.map .ok ∧
        commands.map (fun command => command.words.map fun word => (word.value, word.literal)) =
          script.commands.map fun command => command.words.map fun word => (word.text, true)) ∧
      parseScript ("[" ++ script.rendering ++ "]") =
        [.ok ⟨[⟨"[" ++ script.rendering ++ "]", false, .bare, 0⟩], 0⟩] := by
  constructor
  · refine ⟨script.readAt 0, ?_, script.readAt_values 0⟩
    have starts := script.starts (.inl rfl) [] 0
    rw [List.append_nil] at starts
    rw [parseScript, start, WrittenScript.rendering, String.toList_ofList]
    exact script.commandsFrom_chars starts
  · have text : "[" ++ script.rendering ++ "]" = String.ofList (bracketed script.chars) := by
      have inside : script.rendering.toList = script.chars := String.toList_ofList
      rw [← String.toList_inj, String.toList_append, String.toList_append, inside]
      exact String.toList_ofList.symm
    rw [text, parseScript, start, String.toList_ofList]
    refine commandsFrom_bracketed fun levels => ?_
    rw [octets_bracketed]
    exact script.skipScript_chars _ 0 (script.starts (.inr rfl) _ 1)

end CompiledScript
