import CompiledScript.Proofs.Definition.Lines
import CompiledScript.Proofs.Definition.Values
import CompiledScript.Proofs.Script.Boundary

/-!
# Scans of scripts put together

A script that ends at the boundary of its commands is scanned by itself, whatever is put
behind it, and so is what is put behind it: the findings of the whole are those of the
first script and then those of the second, of which the lines are counted on from the
line ends of the first.

A scan knows where it is from one number only, the offset of the script or body in the
whole text, and looks lines up in a table.  So two scans of one script are compared that
start at different offsets and look into different tables.  They find the same, a number
of lines further down, if the tables agree on this wherever the scan may look, and
that is within the script, since no body reaches behind it.
-/

set_option autoImplicit false

namespace CompiledScript

/-! ## Further down -/

/-- The definition, a number of lines further down. -/
def Definition.lower (lines : Nat) (definition : Definition) : Definition :=
  { definition with line := definition.line + lines }

def Finding.lower (lines : Nat) : Finding → Finding
  | definition found => definition (found.lower lines)
  | classNamed name => classNamed name

namespace Scan

variable {dialect : Dialect} {ends others : List Nat} {lines base other : Nat} {scope : String}
  {command : Command}

theorem procedureFindings_lower (line : Nat) :
    procedureFindings command scope (line + lines) =
      (procedureFindings command scope line).map (Finding.lower lines) := by
  unfold procedureFindings
  split <;> rfl

theorem memberFindings_lower (line : Nat) :
    memberFindings dialect command scope (line + lines) =
      (memberFindings dialect command scope line).map (Finding.lower lines) := by
  unfold memberFindings
  split
  · rfl
  · split <;> rfl

/-- A command finds by itself the same on another line. -/
theorem ownFindings_lower
    (agree : lineAt others (other + command.offset) = lineAt ends (base + command.offset) + lines) :
    ownFindings dialect others other scope command =
      (ownFindings dialect ends base scope command).map (Finding.lower lines) := by
  unfold ownFindings commandFindings
  split
  · rfl
  · simp only [agree]
    split
    · exact procedureFindings_lower _
    · split
      · exact memberFindings_lower _
      · split
        · rfl
        · split
          · split
            · split <;> rfl
            · rfl
          · split
            · split <;> rfl
            · rfl

/-- **A scan looks lines up within its script only.**  If two tables agree there, one of them a
number of lines further down, so do the findings. -/
theorem scriptFindings_lower (levels : Nat) {script : String} {base other : Nat} {scope : String}
    (agree : ∀ offset ≤ octets script.toList,
      lineAt others (other + offset) = lineAt ends (base + offset) + lines) :
    scriptFindings dialect others levels script other scope =
      (scriptFindings dialect ends levels script base scope).map (Finding.lower lines) := by
  induction levels generalizing script base other scope with
  | zero => rfl
  | succ levels ih =>
    rw [scriptFindings, scriptFindings, List.map_flatMap, List.flatMap_def, List.flatMap_def]
    refine congrArg List.flatten (List.map_congr_left fun parsed parses => ?_)
    cases parsed with
    | error error => rfl
    | ok command =>
      have fits : command.Fits (octets script.toList) := parseScript_fits parses
      simp only
      rw [commandFindings_eq, commandFindings_eq]
      cases opened : namespaceBody? dialect scope command with
      | none => exact ownFindings_lower (agree _ fits.stands)
      | some body =>
        obtain ⟨body, inner⟩ := body
        have room := fits.words body (namespaceBody?_mem opened) (namespaceBody?_literal opened)
        refine ih fun offset inside => ?_
        rw [Nat.add_assoc, Nat.add_assoc]
        exact agree _ (by omega)

/-! ## Commands further on -/

@[simp] theorem literal?_displace (distance : Nat) (word : Word) :
    (word.displace distance).literal? = word.literal? := rfl

theorem literalWord?_displace (distance : Nat) (index : Nat) :
    literalWord? (command.displace distance) index = literalWord? command index := by
  rw [literalWord?, literalWord?, Command.displace, List.getElem?_map]
  cases command.words[index]? <;> rfl

theorem literalWords?_displace (distance : Nat) :
    literalWords? (command.displace distance) = literalWords? command := by
  rw [literalWords?, literalWords?, Command.displace, List.mapM_map]
  rfl

theorem contentOffset_displace (distance : Nat) (word : Word) :
    contentOffset (word.displace distance) = contentOffset word + distance := by
  unfold contentOffset
  rw [Word.displace]
  cases word.form with
  | braced | quoted => exact Nat.add_right_comm _ _ _
  | bare | expanded => rfl

/-- A command that stands further on is what it is in a script that starts further on. -/
theorem commandFindings_displace (scanBody : String → Nat → String → List Finding)
    (distance : Nat) :
    commandFindings dialect ends scanBody base scope (command.displace distance) =
      commandFindings dialect ends scanBody (base + distance) scope command := by
  have stands : base + (command.displace distance).offset = base + distance + command.offset := by
    simp only [Command.displace]
    omega
  unfold commandFindings
  simp only [literalWord?_displace, stands]
  split
  · rfl
  · split
    · rw [procedureFindings, procedureFindings, literalWords?_displace]
    · split
      · rw [memberFindings, memberFindings, literalWord?_displace, literalWords?_displace]
      · split
        · rfl
        · split
          · rw [Command.displace]
            rcases command.words with _ | ⟨_, _ | ⟨_, _ | ⟨inner, _ | ⟨body, _ | _⟩⟩⟩⟩
            case cons.cons.cons.cons.nil =>
              simp only [List.map_cons, List.map_nil, literal?_displace, contentOffset_displace]
              rw [Nat.add_comm (contentOffset body) distance, ← Nat.add_assoc]
            all_goals rfl
          · rfl

end Scan

/-! ## Lines behind another text -/

theorem lineEnds_add (offset distance : Nat) (chars : List Char) :
    lineEnds (offset + distance) chars = (lineEnds offset chars).map (· + distance) := by
  induction chars generalizing offset with
  | nil => rfl
  | cons char chars ih =>
    rw [lineEnds, lineEnds]
    split
    · rw [Nat.add_right_comm, ih]
      rfl
    · rw [Nat.add_right_comm, ih]

/-- Within a text, lines are counted the same whatever is put behind it. -/
theorem lineAt_append_left {before : List Char} {offset : Nat} (inside : offset ≤ octets before)
    (after : List Char) :
    lineAt (lineEnds 0 (before ++ after)) offset = lineAt (lineEnds 0 before) offset := by
  have behind : (lineEnds (0 + octets before) after).countP (· < offset) = 0 :=
    countP_lineEnds_of_le (by omega) after
  rw [lineAt_eq_countP (lineEnds_pairwise _ _), lineAt_eq_countP (lineEnds_pairwise _ _),
    lineEnds_append, List.countP_append, behind, Nat.add_zero]

/-- Behind a text, lines are counted on from its line ends. -/
theorem lineAt_append_right (before after : List Char) (offset : Nat) :
    lineAt (lineEnds 0 (before ++ after)) (octets before + offset) =
      lineAt (lineEnds 0 after) offset + before.count '\n' := by
  have inFront : (lineEnds 0 before).countP (· < octets before + offset) = before.count '\n' :=
    countP_lineEnds_of_ge (by omega)
  have behind : (lineEnds (octets before) after).countP (· < octets before + offset) =
      (lineEnds 0 after).countP (· < offset) := by
    have moved := lineEnds_add 0 (octets before) after
    rw [Nat.zero_add] at moved
    rw [moved, List.countP_map]
    refine List.countP_congr fun lineEnd _ => ?_
    simp only [Function.comp_apply, decide_eq_true_eq]
    omega
  rw [lineAt_eq_countP (lineEnds_pairwise _ _), lineAt_eq_countP (lineEnds_pairwise _ _),
    lineEnds_append, List.countP_append, Nat.zero_add, inFront, behind]
  omega

/-! ## Results -/

theorem definition?_lower (lines : Nat) (finding : Finding) :
    (finding.lower lines).definition? = finding.definition?.map (Definition.lower lines) := by
  cases finding <;> rfl

theorem className?_lower (lines : Nat) (finding : Finding) :
    (finding.lower lines).className? = finding.className? := by
  cases finding <;> rfl

/-- The elements of a kind are found in the order in which they were first seen. -/
theorem eraseDups_filter {α : Type} [DecidableEq α] (kind : α → Bool) (elements : List α) :
    (elements.filter kind).eraseDups = elements.eraseDups.filter kind := by
  cases elements with
  | nil => rfl
  | cons first rest =>
    have further := eraseDups_filter kind (rest.filter fun element => !element == first)
    rw [List.eraseDups_cons, List.filter_cons, List.filter_cons, ← further, List.filter_filter]
    split
    · rw [List.eraseDups_cons, List.filter_filter]
      simp only [Bool.and_comm]
    · rename_i foreign
      congr 1
      refine List.filter_congr fun element _ => ?_
      by_cases same : element = first
      · subst same
        simp [foreign]
      · simp [same]
termination_by elements.length
decreasing_by
  have shorter := List.length_filter_le (fun element => !element == first) rest
  simp only [List.length_cons]
  omega

/-- What is put behind a list adds the elements that it does not have. -/
theorem eraseDups_append_filter {α : Type} [DecidableEq α] (front back : List α) :
    (front ++ back).eraseDups =
      front.eraseDups ++ back.eraseDups.filter (· ∉ front.eraseDups) := by
  rw [List.eraseDups_append, List.removeAll, eraseDups_filter]
  congr 1
  refine List.filter_congr fun element _ => ?_
  simp [List.mem_eraseDups]

theorem ScanResult.definitions_append (lines : Nat) (before after : List Finding) :
    (ofFindings (before ++ after.map (Finding.lower lines))).definitions =
      (ofFindings before).definitions ++
        (ofFindings after).definitions.map (Definition.lower lines) := by
  simp only [ofFindings, List.filterMap_append, List.filterMap_map, List.map_filterMap]
  congr 2
  funext finding
  exact definition?_lower lines finding

theorem ScanResult.classes_append (lines : Nat) (before after : List Finding) :
    (ofFindings (before ++ after.map (Finding.lower lines))).classes =
      (ofFindings before).classes ++
        (ofFindings after).classes.filter (· ∉ (ofFindings before).classes) := by
  have names : Finding.className? ∘ Finding.lower lines = Finding.className? := by
    funext finding
    exact className?_lower lines finding
  simp only [ofFindings, List.filterMap_append, List.filterMap_map, names]
  exact eraseDups_append_filter _ _

/-! ## Findings of scripts put together -/

namespace Scan

variable {dialect : Dialect}

theorem map_lower_zero (findings : List Finding) : findings.map (Finding.lower 0) = findings := by
  have same : Finding.lower 0 = id := by
    funext finding
    cases finding <;> rfl
  rw [same, List.map_id]

/-- The findings of the first script, and those of the second further down by its line ends. -/
theorem scriptFindings_append {first : String} (ends : EndsAtBoundary first) (second : String)
    (levels : Nat) (scope : String) :
    scriptFindings dialect (lineEnds 0 (first ++ second).toList) (levels + 1) (first ++ second) 0
        scope =
      scriptFindings dialect (lineEnds 0 first.toList) (levels + 1) first 0 scope ++
        (scriptFindings dialect (lineEnds 0 second.toList) (levels + 1) second 0 scope).map
          (Finding.lower (first.toList.count '\n')) := by
  have before : scriptFindings dialect (lineEnds 0 (first ++ second).toList) (levels + 1) first 0
        scope =
      (scriptFindings dialect (lineEnds 0 first.toList) (levels + 1) first 0 scope).map
        (Finding.lower 0) := by
    refine scriptFindings_lower _ fun offset inside => ?_
    rw [Nat.zero_add, String.toList_append, lineAt_append_left inside, Nat.add_zero]
  have behind : scriptFindings dialect (lineEnds 0 (first ++ second).toList) (levels + 1) second
        first.utf8ByteSize scope =
      (scriptFindings dialect (lineEnds 0 second.toList) (levels + 1) second 0 scope).map
        (Finding.lower (first.toList.count '\n')) := by
    refine scriptFindings_lower _ fun offset _ => ?_
    rw [Nat.zero_add, String.toList_append, ← octets_toList, lineAt_append_right]
  rw [map_lower_zero] at before
  rw [← before, ← behind, scriptFindings, scriptFindings, scriptFindings,
    parseScript_append ends, List.flatMap_append, List.flatMap_map]
  congr 2
  -- What a command of the second script finds further on, it finds in a script that starts there.
  funext parsed
  cases parsed with
  | error error => rfl
  | ok command =>
    simp only [displaced]
    rw [commandFindings_displace, Nat.zero_add]

end Scan

/-- **Scanning is compositional at the boundaries of commands.**  Behind a script that ends at one,
any text adds its own definitions and classes to those of the script: the definitions on lines that
are counted on from the line ends of the script, and the classes that it has not named already.
What the script defines is found as it is without the text, which may be malformed. -/
theorem scan_append {first : String} (ends : EndsAtBoundary first) (second : String)
    (dialect : Dialect) :
    (scan (first ++ second) dialect).definitions =
        (scan first dialect).definitions ++
          (scan second dialect).definitions.map
            (Definition.lower (first.toList.count '\n')) ∧
      (scan (first ++ second) dialect).classes =
        (scan first dialect).classes ++
          (scan second dialect).classes.filter (· ∉ (scan first dialect).classes) := by
  unfold scan
  rw [Scan.scriptFindings_append ends]
  exact ⟨ScanResult.definitions_append _ _ _, ScanResult.classes_append _ _ _⟩

/-- A script of two commands that ends behind a semicolon: the body of a namespace, with a continued
line in it, and a method. -/
def completeScript : String :=
  "namespace eval a \x7b\n  oo::class create C\n  proc f \x7bx\x7d \\\n \x7bset x\x7d\n\x7d\n" ++
    "oo::define ::a::C method m \x7b\x7d \x7bnext\x7d;"

/-- A text with two definitions in front of a brace that is not closed. -/
def brokenScript : String :=
  "\noo::define ::a::C destructor \x7bf\x7d\noo::class create B\n" ++
    "proc g \x7b\x7d \x7bbody\x7d\nproc h \x7b"

/-- The broken script adds its definitions from the sixth line on, and one class. -/
theorem scan_append_complete :
    EndsAtBoundary completeScript ∧
      (scan (completeScript ++ brokenScript) {}).definitions =
        [⟨"::a::f", "::a", "x", "set x", .procedure, 3⟩,
          ⟨"m", "::a::C", "", "next", .member .method "::a::C", 6⟩,
          ⟨"", "::a::C", "", "f", .member .destructor "::a::C", 7⟩,
          ⟨"::g", "::", "", "body", .procedure, 9⟩] ∧
      (scan (completeScript ++ brokenScript) {}).classes = ["::a::C", "::B"] := by
  have ends : EndsAtBoundary completeScript :=
    ⟨2, ';', .inr rfl, by decide +kernel, by decide +kernel⟩
  obtain ⟨definitions, classes⟩ := scan_append ends brokenScript {}
  refine ⟨ends, ?_, ?_⟩
  · rw [definitions]
    decide +kernel
  · rw [classes]
    decide +kernel

/-- A line end that a comment hides is no boundary: what is put behind it belongs to the comment. -/
example :
    (scan ("#\\\n" ++ "proc f \x7b\x7d \x7b\x7d") {}).definitions = [] ∧
      (scan "proc f \x7b\x7d \x7b\x7d" {}).definitions.length = 1 := by
  decide +kernel

end CompiledScript
