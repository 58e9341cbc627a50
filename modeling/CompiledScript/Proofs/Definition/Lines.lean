import CompiledScript.Definition.Scan
import CompiledScript.Proofs.Definition.Tracing

/-!
# The lines of definitions

A scan takes the line of a definition from an offset: that of the command in its script
and those of the bodies around it, added up.  A braced body is not the text between its
braces, though, but what is left of it when continued lines are joined, and what joining
takes away in front of a command is missing from the offset.

So a scan is followed here with the text it comes from.  The recorded line is short of the
line on which the definition stands by the line ends among the bytes that were taken
away, counted back from where it stands.  It is right where nothing was taken away.
-/

set_option autoImplicit false

namespace CompiledScript

namespace Scan

variable {dialect : Dialect} {ends : List Nat} {base : Nat} {scope : String} {command : Command}

/-! ## Commands that open a namespace -/

/-- The body that a command scans in a namespace, and the namespace. -/
def namespaceBody? (dialect : Dialect) (scope : String) (command : Command) :
    Option (Word × String) :=
  match literalWord? command 0, literalWord? command 1 with
  | some first, some second =>
    if !dialect.isProcedure first && !dialect.isMember first &&
        dialect.isNamespaceEval first second then
      match command.words with
      | [_, _, inner, body] =>
        match inner.literal?, body.literal? with
        | some inner, some _ => some (body, Name.qualify inner scope)
        | _, _ => none
      | _ => none
    else none
  | _, _ => none

/-- What a command amounts to by itself. -/
def ownFindings (dialect : Dialect) (ends : List Nat) (base : Nat) (scope : String)
    (command : Command) : List Finding :=
  commandFindings dialect ends (fun _ _ _ => []) base scope command

theorem literal?_value {word : Word} {value : String} (literal : word.literal? = some value) :
    value = word.value := by
  unfold Word.literal? at literal
  split at literal
  · exact (Option.some.inj literal).symm
  · cases literal

/-- A command amounts to what the body of a namespace does, or to something by itself. -/
theorem commandFindings_eq (scanBody : String → Nat → String → List Finding) :
    commandFindings dialect ends scanBody base scope command =
      match namespaceBody? dialect scope command with
      | some (body, inner) => scanBody body.value (base + contentOffset body) inner
      | none => ownFindings dialect ends base scope command := by
  unfold namespaceBody? ownFindings commandFindings
  cases literalWord? command 0 with
  | none => rfl
  | some first =>
    cases literalWord? command 1 with
    | none => rfl
    | some second =>
      simp only
      cases procedure : dialect.isProcedure first with
      | true => simp
      | false =>
        cases member : dialect.isMember first with
        | true => simp
        | false =>
          cases opens : dialect.isNamespaceEval first second with
          | false => simp
          | true =>
            simp only [Bool.not_false, Bool.and_self, if_true, Bool.false_eq_true, if_false]
            generalize command.words = words
            rcases words with _ | ⟨_, _ | ⟨_, _ | ⟨inner, _ | ⟨body, _ | _⟩⟩⟩⟩
            case cons.cons.cons.cons.nil =>
              simp only
              cases inner.literal? with
              | none => rfl
              | some name =>
                cases content : body.literal? with
                | none => rfl
                | some value =>
                  simp only
                  rw [literal?_value content]
            all_goals rfl

/-- The definitions that a command makes by itself are recorded on the line of the command. -/
theorem ownFindings_line {definition : Definition}
    (found : .definition definition ∈ ownFindings dialect ends base scope command) :
    definition.line = lineAt ends (base + command.offset) := by
  unfold ownFindings commandFindings at found
  split at found
  · cases found
  · split at found
    · unfold procedureFindings at found
      split at found
      · cases List.mem_singleton.mp found
        rfl
      · cases found
    · split at found
      · unfold memberFindings at found
        split at found
        · cases found
        · split at found
          · cases found
          · simp only [List.mem_cons, reduceCtorEq, List.not_mem_nil, or_false, false_or] at found
            cases found
            rfl
      · split at found
        · cases found
        · split at found
          · split at found
            · split at found <;> cases found
            · cases found
          · split at found
            · split at found
              · cases List.mem_singleton.mp found
              · cases found
            · cases found

/-! ## A scan that follows the text -/

/-- A finding of a scan, and how the scan came to it. -/
structure Sighting where
  finding : Finding
  /-- The words whose bodies are around it, the outermost first. -/
  bodies : List Word
  /-- The character at which its command stands. -/
  mark : Option TracedChar
deriving DecidableEq, Inhabited, Repr

/-- What a script amounts to, where its text is traced and the given bodies are around it.  The text
of a body is traced on as if it were braced. -/
def tracedFindings (dialect : Dialect) (ends : List Nat) :
    (levels : Nat) → (script : String) → (base : Nat) → (scope : String) → (bodies : List Word) →
      Traced → List Sighting
  | 0, _, _, _, _, _ => []
  | levels + 1, script, base, scope, bodies, text =>
    (parseScript script).flatMap fun parsed =>
      match parsed with
      | .error _ => []
      | .ok command =>
        match namespaceBody? dialect scope command with
        | some (body, inner) =>
          tracedFindings dialect ends levels body.value (base + contentOffset body) inner
            (bodies ++ [body]) (text.content body)
        | none =>
          (ownFindings dialect ends base scope command).map fun finding =>
            ⟨finding, bodies, (text.behind command.offset).head?⟩

theorem tracedFindings_finding (levels : Nat) (script : String) (base : Nat) (scope : String)
    (bodies : List Word) (text : Traced) :
    (tracedFindings dialect ends levels script base scope bodies text).map Sighting.finding =
      scriptFindings dialect ends levels script base scope := by
  induction levels generalizing script base scope bodies text with
  | zero => rfl
  | succ levels ih =>
    rw [tracedFindings, scriptFindings, List.map_flatMap]
    congr 1
    funext parsed
    cases parsed with
    | error error => rfl
    | ok command =>
      simp only
      rw [commandFindings_eq]
      cases namespaceBody? dialect scope command with
      | none => exact List.map_map.trans (List.map_id _)
      | some opened => exact ih _ _ _ _ _

/-- The body that a command scans is one of its words. -/
theorem namespaceBody?_mem {body : Word} {inner : String}
    (opened : namespaceBody? dialect scope command = some (body, inner)) :
    body ∈ command.words := by
  unfold namespaceBody? at opened
  split at opened
  · split at opened
    · split at opened
      · rename_i words
        split at opened
        · cases opened
          rw [words]
          simp
        · cases opened
      · cases opened
    · cases opened
  · cases opened

/-- A body that is scanned is a literal word. -/
theorem namespaceBody?_literal {body : Word} {inner : String}
    (opened : namespaceBody? dialect scope command = some (body, inner)) : body.literal = true := by
  unfold namespaceBody? at opened
  split at opened
  · split at opened
    · split at opened
      · split at opened
        · rename_i literal
          cases opened
          unfold Word.literal? at literal
          split at literal
          · assumption
          · cases literal
        · cases opened
      · cases opened
    · cases opened
  · cases opened

section Sightings

variable {levels : Nat} {script : String} {bodies : List Word} {text : Traced} {sighting : Sighting}

/-- A command of the script is what a scan comes upon, by itself or in the body that it opens. -/
theorem of_mem_tracedFindings
    (listed : sighting ∈ tracedFindings dialect ends (levels + 1) script base scope bodies text) :
    ∃ command, .ok command ∈ parseScript script ∧
      ((∃ body inner, namespaceBody? dialect scope command = some (body, inner) ∧
          sighting ∈ tracedFindings dialect ends levels body.value (base + contentOffset body)
            inner (bodies ++ [body]) (text.content body)) ∨
        ∃ finding ∈ ownFindings dialect ends base scope command,
          sighting = ⟨finding, bodies, (text.behind command.offset).head?⟩) := by
  rw [tracedFindings] at listed
  obtain ⟨parsed, parses, listed⟩ := List.mem_flatMap.mp listed
  cases parsed with
  | error error => cases listed
  | ok command =>
    refine ⟨command, parses, ?_⟩
    simp only at listed
    split at listed
    · rename_i body inner opened
      exact .inl ⟨body, inner, opened, listed⟩
    · obtain ⟨finding, found, rfl⟩ := List.mem_map.mp listed
      exact .inr ⟨finding, found, rfl⟩

/-- The bodies around a script are around its findings. -/
theorem tracedFindings_bodies
    (listed : sighting ∈ tracedFindings dialect ends levels script base scope bodies text) :
    ∀ body ∈ bodies, body ∈ sighting.bodies := by
  induction levels generalizing script base scope bodies text with
  | zero => cases listed
  | succ levels ih =>
    obtain ⟨command, -, ⟨body, inner, -, inside⟩ | ⟨finding, -, rfl⟩⟩ :=
      of_mem_tracedFindings listed
    · intro other around
      exact ih inside other (List.mem_append_left _ around)
    · exact fun body around => around

/-- A definition in braced bodies is recorded on the line that is found when one counts back, from
where it stands, what joining has taken away in front of it. -/
theorem tracedFindings_line {source : String} (of : text.Of source script base)
    (listed : sighting ∈ tracedFindings dialect ends levels script base scope bodies text)
    {definition : Definition} (defines : sighting.finding = .definition definition)
    (braced : ∀ body ∈ sighting.bodies, body.form = .braced) :
    ∃ mark, sighting.mark = some mark ∧ mark.StandsIn source ∧ mark.dropped ≤ mark.place ∧
      definition.line = lineAt ends (mark.place - mark.dropped) := by
  induction levels generalizing script base scope bodies text with
  | zero => cases listed
  | succ levels ih =>
    obtain ⟨command, parses, ⟨body, inner, opened, inside⟩ | ⟨finding, found, rfl⟩⟩ :=
      of_mem_tracedFindings listed
    · have stands : command.In (.start script) := commandsFrom_in parses
      have form : body.form = .braced := braced body (tracedFindings_bodies inside body (by simp))
      have content : contentOffset body = body.offset + 1 := by
        rw [contentOffset, form]
      rw [content] at inside
      exact ih (of.body (stands.braced body (namespaceBody?_mem opened) form)) inside
    · obtain ⟨mark, here, place, site⟩ := of.command (commandsFrom_in parses)
      cases defines
      refine ⟨mark, here, site, by omega, ?_⟩
      rw [ownFindings_line found, place, Nat.add_sub_cancel]

/-- Where no line is continued, joining takes nothing away. -/
theorem tracedFindings_dropped (whole : ¬['\\', '\n'] <:+: text.chars)
    (kept : ∀ traced ∈ text, traced.dropped = 0)
    (listed : sighting ∈ tracedFindings dialect ends levels script base scope bodies text)
    {mark : TracedChar} (here : sighting.mark = some mark) : mark.dropped = 0 := by
  induction levels generalizing script base scope bodies text with
  | zero => cases listed
  | succ levels ih =>
    obtain ⟨command, -, ⟨body, inner, -, inside⟩ | ⟨finding, -, rfl⟩⟩ :=
      of_mem_tracedFindings listed
    · have part : text.content body <:+: text := Traced.content_infix whole body
      refine ih (fun hidden => whole (hidden.trans (part.map TracedChar.char))) ?_ inside
      exact fun traced among => kept traced (part.subset among)
    · have among : mark ∈ text := (Traced.behind_suffix _ text).subset (List.mem_of_mem_head? here)
      exact kept mark among

end Sightings

end Scan

/-! ## Counting lines -/

/-- How many lines end in a text from one offset up to another. -/
def linesBetween (text : String) (start stop : Nat) : Nat :=
  (lineEnds 0 text.toList).countP fun lineEnd => start ≤ lineEnd && lineEnd < stop

theorem le_lineEnds (offset : Nat) (chars : List Char) :
    ∀ lineEnd ∈ lineEnds offset chars, offset ≤ lineEnd := by
  fun_induction lineEnds offset chars with
  | case1 => simp
  | case2 offset rest ih =>
    intro lineEnd listed
    rcases List.mem_cons.mp listed with rfl | later
    · exact Nat.le_refl _
    · have bound := ih lineEnd later
      omega
  | case3 offset char rest other ih =>
    intro lineEnd listed
    have bound := ih lineEnd listed
    omega

theorem lineEnds_pairwise (offset : Nat) (chars : List Char) :
    (lineEnds offset chars).Pairwise (· < ·) := by
  fun_induction lineEnds offset chars with
  | case1 => exact List.Pairwise.nil
  | case2 offset rest ih =>
    exact List.pairwise_cons.mpr ⟨fun lineEnd later => le_lineEnds _ rest lineEnd later, ih⟩
  | case3 offset char rest other ih => exact ih

/-- The line of an offset is one more than the number of lines that end in front of it. -/
theorem lineAt_eq_countP {ends : List Nat} (ascending : ends.Pairwise (· < ·)) (offset : Nat) :
    lineAt ends offset = ends.countP (· < offset) + 1 := by
  rw [lineAt]
  congr 1
  induction ends with
  | nil => rfl
  | cons lineEnd later ih =>
    rw [List.pairwise_cons] at ascending
    by_cases inFront : lineEnd < offset
    · simp [inFront, ih ascending.2]
    · have none : later.countP (· < offset) = 0 := by
        rw [List.countP_eq_zero]
        intro other listed
        have further := ascending.1 other listed
        simp
        omega
      simp [inFront, none]

/-- Further back in a text there are fewer lines by those that end in between. -/
theorem lineOf_add_linesBetween (text : String) {start stop : Nat} (ordered : start ≤ stop) :
    lineOf text start + linesBetween text start stop = lineOf text stop := by
  have ascending := lineEnds_pairwise 0 text.toList
  rw [lineOf, lineOf, lineAt_eq_countP ascending, lineAt_eq_countP ascending, linesBetween]
  generalize lineEnds 0 text.toList = ends
  clear ascending
  induction ends with
  | nil => rfl
  | cons lineEnd later ih =>
    simp only [List.countP_cons, Bool.and_eq_true, decide_eq_true_eq]
    split <;> split <;> split <;> omega

theorem lineEnds_append (offset : Nat) (before after : List Char) :
    lineEnds offset (before ++ after) =
      lineEnds offset before ++ lineEnds (offset + octets before) after := by
  induction before generalizing offset with
  | nil => rfl
  | cons char before ih =>
    rw [List.cons_append, lineEnds, lineEnds, octets_cons, ← Nat.add_assoc]
    split
    · rename_i lineEnd
      subst lineEnd
      rw [ih, List.cons_append]
      rfl
    · exact ih _

/-- No line of a text ends in front of it. -/
theorem countP_lineEnds_of_le {stop offset : Nat} (inFront : stop ≤ offset) (chars : List Char) :
    (lineEnds offset chars).countP (· < stop) = 0 := by
  rw [List.countP_eq_zero]
  intro lineEnd listed below
  have bound := le_lineEnds _ _ lineEnd listed
  have short : lineEnd < stop := of_decide_eq_true below
  omega

/-- All lines of a text end in front of what is behind it. -/
theorem countP_lineEnds_of_ge {stop offset : Nat} {chars : List Char}
    (behind : offset + octets chars ≤ stop) :
    (lineEnds offset chars).countP (· < stop) = chars.count '\n' := by
  induction chars generalizing offset with
  | nil => rfl
  | cons char chars ih =>
    rw [octets_cons, ← Nat.add_assoc] at behind
    rw [lineEnds]
    split
    · rename_i lineEnd
      subst lineEnd
      have size := '\n'.utf8Size_pos
      have inFront : offset < stop := by omega
      rw [List.countP_cons_of_pos (by simpa using inFront), List.count_cons_self]
      exact congrArg (· + 1) (ih behind)
    · rename_i other
      rw [List.count_cons_of_ne other]
      exact ih behind

theorem countP_lineEnds (offset : Nat) (before after : List Char) :
    (lineEnds offset (before ++ after)).countP (· < offset + octets before) =
      before.count '\n' := by
  rw [lineEnds_append, List.countP_append, countP_lineEnds_of_ge (Nat.le_refl _),
    countP_lineEnds_of_le (Nat.le_refl _), Nat.add_zero]

/-- The line of an offset in a text is one more than the number of line ends in front of it. -/
theorem lineOf_octets {text : String} {before after : List Char}
    (split : text.toList = before ++ after) : lineOf text (octets before) = before.count '\n' + 1 := by
  have inFront := countP_lineEnds 0 before after
  rw [Nat.zero_add] at inFront
  rw [lineOf, lineAt_eq_countP (lineEnds_pairwise _ _), split, inFront]

/-! ## The definitions of a source -/

/-- The findings of a source and how its scan comes to them. -/
def sightings (source : String) (dialect : Dialect) : List Scan.Sighting :=
  Scan.tracedFindings dialect (lineEnds 0 source.toList) (Scan.maxNesting + 1) source 0 Name.global []
    (Traced.ofChars 0 source.toList)

/-- **Lines fall behind by the line ends that joining takes away.**  A scan records what its sightings
find, and each definition that has only braced bodies around it stands at a character of the source.
Its line is that of this character, but for the lines that end among the bytes that were taken away,
counted back from there.  A source without continued lines gives the lines on which the
definitions stand. -/
theorem scanned_lines_fall_behind (source : String) (dialect : Dialect) :
    ScanResult.ofFindings ((sightings source dialect).map Scan.Sighting.finding) =
        scan source dialect ∧
      ∀ sighting ∈ sightings source dialect, ∀ definition,
        sighting.finding = .definition definition →
        (∀ body ∈ sighting.bodies, body.form = .braced) →
        ∃ mark before after, sighting.mark = some mark ∧
          source.toList = before ++ mark.char :: after ∧ octets before = mark.place ∧
          definition.line + linesBetween source (mark.place - mark.dropped) mark.place =
            before.count '\n' + 1 ∧
          (¬['\\', '\n'] <:+: source.toList → definition.line = before.count '\n' + 1) := by
  refine ⟨?_, ?_⟩
  · rw [sightings, Scan.tracedFindings_finding]
    rfl
  · intro sighting listed definition defines braced
    obtain ⟨mark, here, ⟨before, after, split, place⟩, dropped, line⟩ :=
      Scan.tracedFindings_line (.whole source) listed defines braced
    have counted : definition.line + linesBetween source (mark.place - mark.dropped) mark.place =
        before.count '\n' + 1 :=
      calc definition.line + linesBetween source (mark.place - mark.dropped) mark.place
        _ = lineOf source (mark.place - mark.dropped) +
              linesBetween source (mark.place - mark.dropped) mark.place := by rw [line, lineOf]
        _ = lineOf source mark.place := lineOf_add_linesBetween source (Nat.sub_le _ _)
        _ = before.count '\n' + 1 := by rw [← place, lineOf_octets split]
    refine ⟨mark, before, after, here, split, place, counted, fun whole => ?_⟩
    have kept : mark.dropped = 0 := by
      refine Scan.tracedFindings_dropped ?_ ?_ listed here
      · rwa [Traced.chars_ofChars]
      · exact Traced.dropped_ofChars 0 source.toList
    rw [kept, Nat.sub_zero] at line
    rw [line, ← lineOf, ← place, lineOf_octets split]

/-! ### A line that falls behind -/

/-- A script with a continued line in front of a procedure in the body of a namespace. -/
def continuedBody : String :=
  "namespace eval a \x7b\nset x \\\n 1\nproc f \x7b\x7d \x7b\x7d\n\x7d"

/-- The procedure stands on the fourth line, in a braced body, and is recorded on the third. -/
theorem scanned_line_before_own :
    (scan continuedBody {}).definitions = [⟨"::a::f", "::a", "", "", .procedure, 3⟩] ∧
      (sightings continuedBody {}).map
          (fun sighting => (sighting.finding, sighting.bodies.map Word.form, sighting.mark)) =
        [(.definition ⟨"::a::f", "::a", "", "", .procedure, 3⟩, [.braced], some ⟨'p', 30, 2⟩)] ∧
      continuedBody.toList =
        "namespace eval a \x7b\nset x \\\n 1\n".toList ++ "proc f \x7b\x7d \x7b\x7d\n\x7d".toList ∧
      octets "namespace eval a \x7b\nset x \\\n 1\n".toList = 30 ∧
      "namespace eval a \x7b\nset x \\\n 1\n".toList.count '\n' + 1 = 4 := by
  decide +kernel

end CompiledScript
