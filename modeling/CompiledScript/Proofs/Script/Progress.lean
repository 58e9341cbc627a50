import CompiledScript.Proofs.Script.Agreement
import CompiledScript.Proofs.Script.Words

/-!
# Splitting a script comes to an end

A script is split by calling for the next command again and again, also after a call that
has failed.  Every call that does not find the end moves on by at least a byte, so there
are no more commands and errors than bytes.  The words that are found stand one behind
the other through all the calls.

All of this is said of characters, but it holds of a parser that works on the bytes as
well: it never cuts a text inside a character, never stands still and never loses count,
and the commands and errors it comes back with are the same, at the same offsets.
-/

set_option autoImplicit false

namespace CompiledScript

open Cursor

/-- Where the parser stands after a number of calls for the next command, each going on from where
the one before it stands. -/
def standsAfter : (calls : Nat) → Cursor → Cursor
  | 0, cursor => cursor
  | calls + 1, cursor => standsAfter calls (nextCommand cursor).cursor

theorem attempts_eq (count : Nat) (cursor : Cursor) :
    attempts count cursor =
      (List.range count).map fun calls => (nextCommand (standsAfter calls cursor)).outcome := by
  induction count generalizing cursor with
  | zero => rfl
  | succ count ih =>
    rw [attempts, List.range_succ_eq_map, List.map_cons, List.map_map, ih]
    rfl

theorem leads_standsAfter (calls : Nat) (cursor : Cursor) :
    cursor.Leads (standsAfter calls cursor) := by
  induction calls generalizing cursor with
  | zero => exact .refl cursor
  | succ calls ih => exact (leads_nextCommand cursor).trans (ih _)

/-! ## Every call moves on -/

/-- A call that finds a command or an error has moved on. -/
theorem nextCommand_moved {cursor : Cursor} (found : (nextCommand cursor).outcome ≠ .ok none) :
    cursor.offset < (nextCommand cursor).cursor.offset :=
  (leads_nextCommand cursor).offset_lt ((parseCommand_length _ none cursor).2 found)

/-- At the end of a script there is no further command. -/
theorem nextCommand_of_ended {cursor : Cursor} (ended : cursor.rest = []) :
    nextCommand cursor = ⟨.ok none, cursor⟩ := by
  rcases cursor with ⟨offset, rest⟩
  cases ended
  rfl

/-- After a number of calls the parser stands at the end, or behind at least as many bytes. -/
theorem standsAfter_progress (calls : Nat) (cursor : Cursor) :
    (standsAfter calls cursor).rest = [] ∨
      cursor.offset + calls ≤ (standsAfter calls cursor).offset := by
  induction calls generalizing cursor with
  | zero => exact .inr (Nat.le_refl _)
  | succ calls ih =>
    rw [standsAfter]
    by_cases ended : (nextCommand cursor).outcome = .ok none
    · refine .inl ?_
      have leads := leads_standsAfter calls (nextCommand cursor).cursor
      have suffix := leads.suffix
      rw [nextCommand_none ended] at suffix
      exact List.suffix_nil.mp suffix
    · have moved := nextCommand_moved ended
      rcases ih (nextCommand cursor).cursor with stop | further
      · exact .inl stop
      · exact .inr (by omega)

/-- The items of a script are no more than its bytes. -/
theorem length_commandsFrom_le (cursor : Cursor) :
    (commandsFrom cursor).length ≤ octets cursor.rest := by
  fun_induction commandsFrom cursor with
  | case1 cursor parsed error failed =>
    have total : parsed.cursor.offset + octets parsed.cursor.rest =
        cursor.offset + octets cursor.rest := (leads_nextCommand cursor).total
    have moved : cursor.offset < parsed.cursor.offset :=
      nextCommand_moved (by rw [show (nextCommand cursor).outcome = _ from failed]; simp)
    simp only [List.length_cons, List.length_nil]
    omega
  | case2 => exact Nat.zero_le _
  | case3 cursor parsed command found ih =>
    have total : parsed.cursor.offset + octets parsed.cursor.rest =
        cursor.offset + octets cursor.rest := (leads_nextCommand cursor).total
    have moved : cursor.offset < parsed.cursor.offset :=
      nextCommand_moved (by rw [show (nextCommand cursor).outcome = _ from found]; simp)
    rw [List.length_cons]
    omega

/-! ## The order of the words -/

/-- The offsets of the words that a call has found. -/
def wordOffsets : Except ParseError (Option Command) → List Nat
  | .ok (some command) => command.words.map Word.offset
  | _ => []

/-- The words that calls find one after the other stand one behind the other. -/
theorem attempts_ordered (count : Nat) (cursor : Cursor) :
    ((attempts count cursor).flatMap wordOffsets).Pairwise (· < ·) ∧
      ∀ offset ∈ (attempts count cursor).flatMap wordOffsets, cursor.offset ≤ offset := by
  induction count generalizing cursor with
  | zero => exact ⟨.nil, nofun⟩
  | succ count ih =>
    obtain ⟨ordered, behind⟩ := ih (nextCommand cursor).cursor
    have first : (wordOffsets (nextCommand cursor).outcome).Pairwise (· < ·) ∧
        ∀ offset ∈ wordOffsets (nextCommand cursor).outcome,
          cursor.offset ≤ offset ∧ offset < (nextCommand cursor).cursor.offset := by
      cases found : (nextCommand cursor).outcome with
      | error error => exact ⟨.nil, nofun⟩
      | ok command? =>
        cases command? with
        | none => exact ⟨.nil, nofun⟩
        | some command =>
          have ascend := (parseCommand_found (Substitution.movesOn_within _) found).2
          refine ⟨ascend.ordered, fun offset listed => ?_⟩
          obtain ⟨word, among, rfl⟩ := List.mem_map.mp listed
          exact ascend.between word among
    have onwards : cursor.offset ≤ (nextCommand cursor).cursor.offset :=
      (leads_nextCommand cursor).offset_le
    rw [attempts, List.flatMap_cons]
    refine ⟨List.pairwise_append.mpr ⟨first.1, ordered, fun one here other later => ?_⟩, ?_⟩
    · exact Nat.lt_of_lt_of_le (first.2 one here).2 (behind other later)
    · intro offset listed
      rcases List.mem_append.mp listed with here | later
      · exact (first.2 offset here).1
      · exact Nat.le_trans onwards (behind offset later)

/-! ## The bytes -/

theorem attempts_bytes (count : Nat) (cursor : Cursor) :
    Bytewise.attempts count cursor.bytes =
      .ok ((List.range count).map fun calls =>
        ((nextCommand (standsAfter calls cursor)).outcome.map (Option.map Command.bytes),
          (standsAfter (calls + 1) cursor).offset)) := by
  induction count generalizing cursor with
  | zero => rfl
  | succ count ih =>
    rw [Bytewise.attempts, Bytewise.nextCommand_bytes, List.range_succ_eq_map, List.map_cons,
      List.map_map]
    simp only [bind, Except.bind, Parsed.bytes, ih]
    rfl

/-- What a call for the next command of a script does. -/
structure Advance (source : String) (cursor : Cursor) : Prop where
  /-- The parser stays within the script. -/
  inside : (nextCommand cursor).cursor.offset ≤ source.utf8ByteSize
  /-- If there is no further command, it stands at the end. -/
  ended : (nextCommand cursor).outcome = .ok none →
    (nextCommand cursor).cursor.offset = source.utf8ByteSize
  /-- Otherwise it has moved on. -/
  moved : (nextCommand cursor).outcome ≠ .ok none →
    cursor.offset < (nextCommand cursor).cursor.offset
  /-- A command has a first word and stands where this word does. -/
  worded : ∀ command, (nextCommand cursor).outcome = .ok (some command) →
    ∃ first others, command.words = first :: others ∧ command.offset = first.offset

theorem advance (source : String) {cursor : Cursor}
    (leads : (Cursor.start source).Leads cursor) : Advance source cursor := by
  have total := (leads.trans (leads_nextCommand cursor)).total
  have start : (Cursor.start source).offset + octets (Cursor.start source).rest =
      source.utf8ByteSize := by
    rw [← octets_toList]
    exact Nat.zero_add _
  refine ⟨by omega, fun none => ?_, nextCommand_moved, fun command found => ?_⟩
  · rw [nextCommand_none none, octets_nil] at total
    omega
  · exact (parseCommand_found (Substitution.movesOn_within _) found).1

/-- **Splitting a script advances with every call and never breaks down.**  Each call for the next
command stays within the script, and stands at its end or has moved on; a command has a first word
and stands where that does; through any number of calls, also after errors, the words stand one behind
the other.  From as many calls on as there are bytes nothing is found any more, and a run that ends
with the first error has no more items than that.  Any number of calls on the bytes of the script
comes back, with the same commands, errors and offsets. -/
theorem script_splitting_advances (source : String) :
    (∀ calls, Advance source (standsAfter calls (.start source))) ∧
      (∀ count, (((List.range count).map fun calls =>
          (nextCommand (standsAfter calls (.start source))).outcome).flatMap wordOffsets).Pairwise
        (· < ·)) ∧
      (∀ calls, source.utf8ByteSize ≤ calls →
        (nextCommand (standsAfter calls (.start source))).outcome = .ok none) ∧
      (parseScript source).length ≤ source.utf8ByteSize ∧
      ∀ count, Bytewise.attempts count ⟨0, .ofText source⟩ =
        .ok ((List.range count).map fun calls =>
          ((nextCommand (standsAfter calls (.start source))).outcome.map (Option.map Command.bytes),
            (standsAfter (calls + 1) (.start source)).offset)) := by
  refine ⟨fun calls => ?_, fun count => ?_, fun calls enough => ?_, ?_, fun count => ?_⟩
  · exact advance source (leads_standsAfter calls _)
  · rw [← attempts_eq]
    exact (attempts_ordered count _).1
  · have total := (leads_standsAfter calls (.start source)).total
    have start : octets (Cursor.start source).rest = source.utf8ByteSize := octets_toList source
    have zero : (Cursor.start source).offset = 0 := rfl
    have ended : (standsAfter calls (.start source)).rest = [] := by
      rcases standsAfter_progress calls (.start source) with ended | further
      · exact ended
      · have nothing : octets (standsAfter calls (.start source)).rest = 0 := by omega
        have shorter := length_le_octets (standsAfter calls (.start source)).rest
        exact List.length_eq_zero_iff.mp (by omega)
    rw [nextCommand_of_ended ended]
  · have bound := length_commandsFrom_le (.start source)
    rwa [show octets (Cursor.start source).rest = source.utf8ByteSize from octets_toList source]
      at bound
  · have bytes := attempts_bytes count (.start source)
    rwa [show (Cursor.start source).bytes = ⟨0, .ofText source⟩ by
      rw [Cursor.bytes, Bytes.ofText_eq]; rfl] at bytes

end CompiledScript
