import CompiledScript.Proofs.Script.Locality
import CompiledScript.Proofs.Script.Progress
import Mathlib.Control.Monad.Basic

/-!
# Scripts put together

Where a script comes to its last byte with every command found, and this byte is a line
end or a semicolon, another script may be put behind it.  The commands of both are then
those of the first and those of the second, further on by the size of the first, and
this is so whatever the second one is: if it is malformed, the commands of the first are
found all the same.

The condition is needed.  A line end may as well stand in a braced word, or behind
a backslash, and then what is put behind it belongs to the command before it.

Any script can be cut like this.  Where a number of calls for the next command succeed
and the parser stands at a line end or a semicolon, what comes behind may be exchanged for
any other text: the commands up to there are found again, and then what the other text
is by itself.
-/

set_option autoImplicit false

namespace CompiledScript

open Cursor

/-- After a number of calls for the next command that all succeed, the parser stands at the last
byte of the script, and this separates commands. -/
def EndsAtBoundary (script : String) : Prop :=
  ∃ calls separator, Separates separator ∧
    (∀ outcome ∈ attempts calls (.start script), outcome.isOk = true) ∧
    (standsAfter calls (.start script)).rest = [separator]

variable {separator : Char}

/-- Behind a separator a script goes on as if it started there. -/
theorem commandsFrom_separator (separates : Separates separator) (offset : Nat)
    (chars : List Char) :
    commandsFrom ⟨offset, separator :: chars⟩ =
      (commandsFrom ⟨0, chars⟩).map (displaced (Command.displace (offset + 1)) (offset + 1)) := by
  have passed := nextCommand_separator separates offset chars
  cases outcome : (nextCommand ⟨0, chars⟩).outcome with
  | error error =>
    have failed : (nextCommand ⟨offset, separator :: chars⟩).outcome =
        .error (error.displace (offset + 1)) := by
      rw [passed, Parsed.displace_error outcome]
    rw [commandsFrom_of_error failed, commandsFrom_of_error outcome]
    rfl
  | ok command? =>
    have found : (nextCommand ⟨offset, separator :: chars⟩).outcome =
        .ok (command?.map (Command.displace (offset + 1))) := by
      rw [passed, Parsed.displace_ok outcome]
    cases command? with
    | none =>
      rw [commandsFrom_of_none found, commandsFrom_of_none outcome]
      rfl
    | some command =>
      rw [commandsFrom_of_command found, commandsFrom_of_command outcome, passed,
        Parsed.displace_cursor, commandsFrom_displace]
      rfl

/-- A separator alone is no command. -/
theorem commandsFrom_singleton (separates : Separates separator) (offset : Nat) :
    commandsFrom ⟨offset, [separator]⟩ = [] := by
  have none : commandsFrom ⟨0, []⟩ = [] := commandsFrom_of_none rfl
  rw [commandsFrom_separator separates, none, List.map_nil]

/-! ## Calls that succeed -/

/-- A call that succeeds in front of the end of a script has found a command. -/
theorem command_of_standsAfter {calls : Nat} {cursor : Cursor}
    (successful : (nextCommand cursor).outcome.isOk = true)
    (further : (standsAfter (calls + 1) cursor).rest ≠ []) :
    ∃ command, (nextCommand cursor).outcome = .ok (some command) := by
  cases outcome : (nextCommand cursor).outcome with
  | error error =>
    rw [outcome] at successful
    cases successful
  | ok found =>
    cases found with
    | some command => exact ⟨command, rfl⟩
    | none =>
      have suffix := (leads_standsAfter calls (nextCommand cursor).cursor).suffix
      rw [nextCommand_none outcome] at suffix
      exact absurd (List.suffix_nil.mp suffix) further

/-- Calls have found these commands, one each. -/
def FoundBy (calls : Nat) (cursor : Cursor) (commands : List Command) : Prop :=
  attempts calls cursor = commands.map fun command => .ok (some command)

/-- The commands that calls have found come first. -/
theorem FoundBy.commandsFrom_eq {calls : Nat} {cursor : Cursor} {commands : List Command}
    (found : FoundBy calls cursor commands) :
    commandsFrom cursor = commands.map .ok ++ commandsFrom (standsAfter calls cursor) := by
  induction calls generalizing cursor commands with
  | zero =>
    obtain rfl : commands = [] := List.map_eq_nil_iff.mp found.symm
    rfl
  | succ calls ih =>
    rw [FoundBy, attempts] at found
    cases commands with
    | nil => cases found
    | cons command commands =>
      obtain ⟨outcome, later⟩ := List.cons.inj found
      rw [commandsFrom_of_command outcome, ih later]
      rfl

/-- A text in which the parser arrives at a separator has the separator in it. -/
theorem exists_front_of_standsAfter {calls : Nat} {cursor : Cursor} {behind : List Char}
    (stands : (standsAfter calls cursor).rest = separator :: behind) :
    ∃ front, cursor.rest = front ++ separator :: behind ∧
      (standsAfter calls cursor).offset = cursor.offset + octets front := by
  obtain ⟨front, split, passed⟩ := leads_standsAfter calls cursor
  exact ⟨front, stands ▸ split, passed⟩

/-- **Calls that succeed up to a separator find the same whatever stands behind it**, and come to
stand at it again. -/
theorem exists_foundBy (separates : Separates separator) (calls : Nat) {offset : Nat}
    {inside behind : List Char}
    (successful : ∀ outcome ∈ attempts calls ⟨offset, inside ++ separator :: behind⟩,
      outcome.isOk = true)
    (stands : (standsAfter calls ⟨offset, inside ++ separator :: behind⟩).rest =
      separator :: behind) :
    ∃ commands, ∀ other, FoundBy calls ⟨offset, inside ++ separator :: other⟩ commands ∧
      standsAfter calls ⟨offset, inside ++ separator :: other⟩ =
        ⟨offset + octets inside, separator :: other⟩ := by
  induction calls generalizing offset inside with
  | zero =>
    obtain rfl : inside = [] := List.append_left_eq_self.mp stands
    exact ⟨[], fun other => ⟨rfl, rfl⟩⟩
  | succ calls ih =>
    have further : (standsAfter (calls + 1) ⟨offset, inside ++ separator :: behind⟩).rest ≠ [] := by
      rw [stands]
      exact List.cons_ne_nil _ _
    obtain ⟨command, outcome⟩ :=
      command_of_standsAfter (successful _ List.mem_cons_self) further
    have leads := leads_nextCommand ⟨offset, inside ++ separator :: behind⟩
    have keeps : ∀ other, Parsed.Keeps separator behind other _ _ :=
      fun other => nextCommand_keeps separates offset inside
    rw [attempts] at successful
    rw [standsAfter] at stands
    generalize nextCommand ⟨offset, inside ++ separator :: behind⟩ = parsed at *
    obtain ⟨_, next, rest⟩ := parsed
    obtain ⟨front, rfl, -⟩ := exists_front_of_standsAfter stands
    have kept : ∀ other, nextCommand ⟨offset, inside ++ separator :: other⟩ =
        ⟨.ok (some command), ⟨next, front ++ separator :: other⟩⟩ :=
      fun other => keeps other (some command) front outcome rfl
    have arrives : next + octets front = offset + octets inside := by
      have total := leads.total
      simp only [octets_append] at total
      omega
    obtain ⟨commands, found⟩ :=
      ih (fun outcome later => successful outcome (List.mem_cons_of_mem _ later)) stands
    refine ⟨command :: commands, fun other => ?_⟩
    rw [FoundBy, attempts, standsAfter, kept other, ← arrives]
    exact ⟨congrArg (.ok (some command) :: ·) (found other).1, (found other).2⟩

/-! ## What is put behind a boundary -/

/-- **The commands of scripts put together are those of the first and those of the second.**  The
second may be any text at all. -/
theorem parseScript_append {first : String} (ends : EndsAtBoundary first) (second : String) :
    parseScript (first ++ second) =
      parseScript first ++ (parseScript second).map
        (displaced (Command.displace first.utf8ByteSize) first.utf8ByteSize) := by
  obtain ⟨calls, separator, separates, successful, stands⟩ := ends
  obtain ⟨inside, split, -⟩ : ∃ inside, first.toList = inside ++ [separator] ∧ _ :=
    exists_front_of_standsAfter stands
  have one : separator.utf8Size = 1 := by
    rcases separates with rfl | rfl <;> rfl
  have size : first.utf8ByteSize = 0 + octets inside + 1 := by
    rw [← octets_toList, split, octets_append, octets_cons, octets_nil, one]
    omega
  rw [Cursor.start, split] at successful stands
  obtain ⟨commands, found⟩ := exists_foundBy separates calls successful stands
  have alone : parseScript first = commands.map .ok := by
    rw [parseScript, start, split, (found []).1.commandsFrom_eq, (found []).2,
      commandsFrom_singleton separates, List.append_nil]
  rw [alone, parseScript, parseScript, start, start, String.toList_append, split,
    List.append_assoc, List.singleton_append, (found second.toList).1.commandsFrom_eq,
    (found second.toList).2, commandsFrom_separator separates, size]

/-! ## Scripts that are cut -/

/-- **The parser is local.**  Where calls for the next command have succeeded and the parser stands
at a line end or a semicolon, at a position, the script up to and with this byte may go on with any
text.  The same calls find the same commands, each word at its offset, and what comes then is what
the text is by itself, its commands and the error that may end it, further on by one more than the
position. -/
theorem parsing_is_local {source : String} {calls position : Nat} {behind : List Char}
    (successful : ∀ outcome ∈ attempts calls (.start source), outcome.isOk = true)
    (stands : standsAfter calls (.start source) = ⟨position, separator :: behind⟩)
    (separates : Separates separator) :
    ∃ front commands, source = front ++ String.ofList behind ∧
      front.utf8ByteSize = position + 1 ∧ FoundBy calls (.start source) commands ∧
      ∀ text, FoundBy calls (.start (front ++ text)) commands ∧
        parseScript (front ++ text) =
          commands.map .ok ++ (parseScript text).map
            (displaced (Command.displace (position + 1)) (position + 1)) := by
  obtain ⟨inside, split, passed⟩ : ∃ inside, source.toList = inside ++ separator :: behind ∧ _ :=
    exists_front_of_standsAfter (congrArg Cursor.rest stands)
  rw [stands] at passed
  change position = 0 + octets inside at passed
  have one : separator.utf8Size = 1 := by
    rcases separates with rfl | rfl <;> rfl
  have goesOn (text : String) :
      Cursor.start (String.ofList (inside ++ [separator]) ++ text) =
        ⟨0, inside ++ separator :: text.toList⟩ := by
    rw [start, String.toList_append, String.toList_ofList, List.append_assoc,
      List.singleton_append]
  have whole : source = String.ofList (inside ++ [separator]) ++ String.ofList behind := by
    rw [← String.ofList_append, List.append_assoc, List.singleton_append, ← split,
      String.ofList_toList]
  have itself : Cursor.start source = ⟨0, inside ++ separator :: behind⟩ := by
    rw [start, split]
  rw [itself] at successful stands
  obtain ⟨commands, found⟩ :=
    exists_foundBy separates calls successful (congrArg Cursor.rest stands)
  refine ⟨String.ofList (inside ++ [separator]), commands, whole, ?_, ?_, fun text => ⟨?_, ?_⟩⟩
  · rw [← octets_toList, String.toList_ofList, octets_append, octets_cons, octets_nil, one, passed]
    omega
  · rw [itself]
    exact (found behind).1
  · rw [goesOn]
    exact (found text.toList).1
  · rw [parseScript, parseScript, goesOn, (found text.toList).1.commandsFrom_eq,
      (found text.toList).2, commandsFrom_separator separates, passed]
    rfl

/-- A script with a substitution over two lines and, behind a semicolon, a quoted word that is not
closed. -/
def unclosedQuote : String := "# é;\nset x [f \x7b;\n\x7d];\"un"

/-- A text with an expanded word in front of a brace that is not closed. -/
def unclosedBrace : String := "\x7b*\x7d$v\nputs \x7b"

/-- Behind the semicolon the script may go on with the open brace in place of the open quote. -/
theorem parsing_is_local_unclosed :
    (∀ outcome ∈ attempts 1 (.start unclosedQuote), outcome.isOk = true) ∧
      standsAfter 1 (.start unclosedQuote) = ⟨20, [';', '"', 'u', 'n']⟩ ∧
      ∃ front commands, unclosedQuote = front ++ "\"un" ∧
        FoundBy 1 (.start unclosedQuote) commands ∧
        parseScript (front ++ unclosedBrace) =
          commands.map .ok ++ [.ok ⟨[⟨"\x7b*\x7d$v", false, .expanded, 21⟩], 21⟩,
            .error (.missingCloseBrace 32)] := by
  have successful : ∀ outcome ∈ attempts 1 (.start unclosedQuote), outcome.isOk = true := by
    decide +kernel
  have stands : standsAfter 1 (.start unclosedQuote) = ⟨20, [';', '"', 'u', 'n']⟩ := by
    decide +kernel
  obtain ⟨front, commands, whole, -, found, further⟩ :=
    parsing_is_local successful stands (.inr rfl)
  refine ⟨successful, stands, front, commands, whole, found, ?_⟩
  rw [(further unclosedBrace).2]
  congr 1
  decide +kernel

end CompiledScript
