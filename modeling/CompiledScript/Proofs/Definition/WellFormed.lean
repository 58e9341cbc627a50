import CompiledScript.Proofs.Definition.Lines
import CompiledScript.Proofs.Definition.Scopes
import CompiledScript.Proofs.Definition.Values
import Mathlib.Data.List.Pairwise

/-!
# What scans have in common

Whatever the script and the dialect are, the result of a scan is well formed.  Procedures
and classes have absolute names, members stand in their class, which is listed among the
classes, and constructors and destructors have no name.  No class is listed twice.  The
lines of the definitions ascend, and they are lines of the script.

The lines are the hard part.  They are taken from offsets that are added up over bodies
whose values are not their texts, so the offset of a definition need not be that of its
command.  It lies between two offsets that are right, though.  No value is longer than its
word, so what is scanned in a command is found at or behind its first byte and in front
of the next command, and all of it in front of the end of the script.  So offsets ascend
from command to command, at every depth, and lines do as their offsets do.
-/

set_option autoImplicit false

namespace CompiledScript

open Cursor

/-! ## Commands behind each other -/

/-- A command stands in front of another one, with whatever is scanned in its words. -/
structure Command.Precedes (first second : Command) : Prop where
  stands : first.offset < second.offset
  fits : first.Fits second.offset

/-- The commands of a script stand behind each other. -/
theorem commandsFrom_precede (cursor : Cursor) :
    (commandsFrom cursor).Pairwise fun one other =>
      ∀ first second, one = .ok first → other = .ok second → first.Precedes second := by
  fun_induction commandsFrom cursor with
  | case1 => exact List.pairwise_singleton _ _
  | case2 => exact List.Pairwise.nil
  | case3 cursor parsed command read ih =>
    refine List.pairwise_cons.mpr ⟨?_, ih⟩
    rintro other later first second here rfl
    cases here
    have moves := Substitution.movesOn_within cursor.rest.length
    obtain ⟨⟨word, others, starts, stands⟩, ascend⟩ := parseCommand_found moves read
    have inFront := (ascend.between word (starts ▸ List.mem_cons_self)).2
    obtain ⟨_, _, onwards, -⟩ := (commandsFrom_in later).stands
    have behind : parsed.cursor.offset ≤ second.offset := onwards.offset_le
    have fits : command.Fits parsed.cursor.offset := parseCommand_fits moves read
    refine ⟨?_, Nat.le_trans fits.stands behind, fun word listed => ?_⟩
    · rw [stands]
      exact Nat.lt_of_lt_of_le inFront behind
    · exact (fits.words word listed).further behind

/-- The words of a command do not stand in front of it. -/
theorem commandsFrom_words {cursor : Cursor} {command : Command}
    (found : .ok command ∈ commandsFrom cursor) :
    ∀ word ∈ command.words, command.offset ≤ word.offset := by
  fun_induction commandsFrom cursor with
  | case1 => simp at found
  | case2 => cases found
  | case3 cursor parsed first read ih =>
    rcases List.mem_cons.mp found with same | later
    · cases same
      obtain ⟨⟨word, others, starts, stands⟩, ascend⟩ :=
        parseCommand_found (Substitution.movesOn_within _) read
      have ordered := ascend.ordered
      rw [starts, List.map_cons, List.pairwise_cons] at ordered
      rw [starts, stands]
      intro other listed
      rcases List.mem_cons.mp listed with rfl | behind
      · exact Nat.le_refl _
      · exact Nat.le_of_lt (ordered.1 _ (List.mem_map_of_mem behind))
    · exact ih later

/-- A command stands in front of the end of its script. -/
theorem parseScript_stands {script : String} {command : Command}
    (found : .ok command ∈ parseScript script) : command.offset < octets script.toList := by
  obtain ⟨char, rest, onwards, -⟩ := (commandsFrom_in found).stands
  have total := onwards.total
  have positive := char.utf8Size_pos
  rw [start, octets_cons] at total
  simp only at total
  omega

/-! ## Lines of a text -/

/-- The number of lines of a text.  A line end opens another line unless it is the last character. -/
def lineCount (text : String) : Nat :=
  if text.toList = [] then 0 else text.toList.dropLast.count '\n' + 1

/-- Further on in a text the lines are no smaller. -/
theorem lineAt_mono {ends : List Nat} (ascending : ends.Pairwise (· < ·)) {start stop : Nat}
    (ordered : start ≤ stop) : lineAt ends start ≤ lineAt ends stop := by
  rw [lineAt_eq_countP ascending, lineAt_eq_countP ascending]
  refine Nat.succ_le_succ (List.countP_mono_left fun lineEnd _ inFront => ?_)
  have below : lineEnd < start := of_decide_eq_true inFront
  exact decide_eq_true (Nat.lt_of_lt_of_le below ordered)

/-- In front of the end of a text, a line is one of its lines. -/
theorem lineOf_le_lineCount {text : String} {offset : Nat} (inside : offset < octets text.toList) :
    lineOf text offset ≤ lineCount text := by
  have some_char : text.toList ≠ [] := by
    intro empty
    rw [empty] at inside
    exact absurd inside (Nat.not_lt_zero _)
  rw [lineOf, lineAt_eq_countP (lineEnds_pairwise _ _), lineCount, if_neg some_char]
  rw [← List.dropLast_concat_getLast some_char] at inside
  generalize same : text.toList.getLast some_char = last at inside
  have split : text.toList = text.toList.dropLast ++ [last] := by
    rw [← same, List.dropLast_concat_getLast]
  generalize text.toList.dropLast = front at inside split
  rw [split, lineEnds_append, List.countP_append]
  have counted : (lineEnds 0 front).countP (· < offset) ≤ front.count '\n' := by
    have all : (lineEnds 0 front).countP (· < octets front + offset) = front.count '\n' :=
      countP_lineEnds_of_ge (by omega)
    rw [← all]
    refine List.countP_mono_left fun lineEnd _ inFront => ?_
    have below : lineEnd < offset := of_decide_eq_true inFront
    exact decide_eq_true (by omega)
  have none : (lineEnds (0 + octets front) [last]).countP (· < offset) = 0 := by
    rw [lineEnds]
    split
    · rename_i lineEnd
      subst lineEnd
      have one : '\n'.utf8Size = 1 := rfl
      rw [octets_append, octets_cons, octets_nil, one] at inside
      exact List.countP_cons_of_neg (by simp; omega)
    · rfl
  omega

/-! ## Lines of findings -/

/-- A finding that is a definition is recorded on the line of an offset between two others. -/
def Finding.Between (ends : List Nat) (start stop : Nat) (finding : Finding) : Prop :=
  ∀ definition, finding = .definition definition →
    ∃ offset, start ≤ offset ∧ offset < stop ∧ definition.line = lineAt ends offset

/-- If findings are definitions, the line of the first is not behind that of the second. -/
def Finding.InOrder (first second : Finding) : Prop :=
  ∀ one other, first = .definition one → second = .definition other → one.line ≤ other.line

namespace Finding

variable {ends : List Nat} {start stop : Nat} {finding : Finding}

theorem Between.within {earlier later : Nat} (between : finding.Between ends start stop)
    (front : earlier ≤ start) (back : stop ≤ later) : finding.Between ends earlier later := by
  intro definition defines
  obtain ⟨offset, low, high, line⟩ := between definition defines
  exact ⟨offset, Nat.le_trans front low, Nat.lt_of_lt_of_le high back, line⟩

/-- Findings between offsets behind each other are in order. -/
theorem Between.inOrder (ascending : ends.Pairwise (· < ·)) {first second : Finding}
    {front middle back : Nat} (before : first.Between ends front middle)
    (after : second.Between ends middle back) : first.InOrder second := by
  intro one other defines definesToo
  obtain ⟨offset, -, high, line⟩ := before one defines
  obtain ⟨further, low, -, lineToo⟩ := after other definesToo
  rw [line, lineToo]
  exact lineAt_mono ascending (Nat.le_trans (Nat.le_of_lt high) low)

end Finding

namespace Scan

variable {dialect : Dialect} {ends : List Nat} {base : Nat} {scope : String} {command : Command}

/-- A finding of a script is what a command of it finds, by itself or in the body that it opens. -/
theorem of_mem_scriptFindings {levels : Nat} {script : String} {finding : Finding}
    (listed : finding ∈ scriptFindings dialect ends (levels + 1) script base scope) :
    ∃ command, .ok command ∈ parseScript script ∧
      finding ∈ commandFindings dialect ends (scriptFindings dialect ends levels) base scope
        command := by
  rw [scriptFindings] at listed
  obtain ⟨parsed, parses, listed⟩ := List.mem_flatMap.mp listed
  cases parsed with
  | error error => cases listed
  | ok command => exact ⟨command, parses, listed⟩

/-- What a command finds is recorded on lines from its first byte on and in front of an offset that
it does not reach behind, if this is so for the bodies that are scanned. -/
theorem commandFindings_between {scanBody : String → Nat → String → List Finding}
    (bodies : ∀ body base scope, ∀ finding ∈ scanBody body base scope,
      finding.Between ends base (base + octets body.toList))
    {stop : Nat} (stands : command.offset < stop) (fits : command.Fits stop)
    (words : ∀ word ∈ command.words, command.offset ≤ word.offset) :
    ∀ finding ∈ commandFindings dialect ends scanBody base scope command,
      finding.Between ends (base + command.offset) (base + stop) := by
  intro finding listed
  rw [commandFindings_eq] at listed
  split at listed
  · rename_i body inner opened
    have among := namespaceBody?_mem opened
    have room := fits.words body among (namespaceBody?_literal opened)
    have front : body.offset ≤ contentOffset body := by
      unfold contentOffset
      split
      · exact Nat.le_succ _
      · exact Nat.le_succ _
      · exact Nat.le_refl _
      · exact Nat.le_refl _
    have behind := words body among
    exact (bodies _ _ _ finding listed).within (by omega) (by omega)
  · rintro definition rfl
    exact ⟨base + command.offset, Nat.le_refl _, by omega, ownFindings_line listed⟩

/-- **What is scanned in a script is recorded on the lines of offsets within it.** -/
theorem scriptFindings_between (levels : Nat) :
    ∀ (script : String) (base : Nat) (scope : String),
      ∀ finding ∈ scriptFindings dialect ends levels script base scope,
        finding.Between ends base (base + octets script.toList) := by
  induction levels with
  | zero => exact fun _ _ _ _ listed => nomatch listed
  | succ levels ih =>
    intro script base scope finding listed
    obtain ⟨command, parses, listed⟩ := of_mem_scriptFindings listed
    exact (commandFindings_between ih (parseScript_stands parses) (parseScript_fits parses)
      (commandsFrom_words parses) finding listed).within (Nat.le_add_right _ _) (Nat.le_refl _)

/-- **The lines of what is scanned ascend.** -/
theorem scriptFindings_inOrder (ascending : ends.Pairwise (· < ·)) (levels : Nat) :
    ∀ (script : String) (base : Nat) (scope : String),
      (scriptFindings dialect ends levels script base scope).Pairwise Finding.InOrder := by
  induction levels with
  | zero => exact fun _ _ _ => List.Pairwise.nil
  | succ levels ih =>
    intro script base scope
    rw [scriptFindings, List.pairwise_flatMap]
    refine ⟨fun parsed parses => ?_, (commandsFrom_precede _).imp_of_mem ?_⟩
    · cases parsed with
      | error error => exact List.Pairwise.nil
      | ok command =>
        simp only
        rw [commandFindings_eq]
        split
        · exact ih _ _ _
        · -- What a command defines by itself stands on the line of the command.
          refine List.pairwise_of_forall_mem_list fun first listed second listedToo => ?_
          rintro one other rfl rfl
          rw [ownFindings_line listed, ownFindings_line listedToo]
    · intro one other parses parsesToo precedes first listed second listedToo
      cases one with
      | error error => cases listed
      | ok one =>
        cases other with
        | error error => cases listedToo
        | ok other =>
          have bodies : ∀ body base scope, ∀ finding ∈
              scriptFindings dialect ends levels body base scope,
                finding.Between ends base (base + octets body.toList) :=
            scriptFindings_between levels
          have order := precedes one other rfl rfl
          have before := commandFindings_between bodies order.stands order.fits
            (commandsFrom_words parses) first listed
          have after := commandFindings_between bodies (parseScript_stands parsesToo)
            (parseScript_fits parsesToo) (commandsFrom_words parsesToo) second listedToo
          exact before.inOrder ascending after

end Scan

/-! ## Names of findings -/

/-- A finding has the names that its kind asks for, among the findings. -/
def Finding.Named (findings : List Finding) : Finding → Prop
  | .classNamed name => Name.isAbsolute name = true
  | .definition found =>
    match found.kind with
    | .procedure => Name.isAbsolute found.name = true
    | .member kind className =>
      Name.isAbsolute className = true ∧ found.scope = className ∧
        .classNamed className ∈ findings ∧
        (kind = .constructor ∨ kind = .destructor → found.name = "")

theorem Finding.Named.among {findings more : List Finding} {finding : Finding}
    (named : finding.Named findings) (contained : findings ⊆ more) : finding.Named more := by
  cases finding with
  | classNamed name => exact named
  | definition found =>
    unfold Finding.Named at named ⊢
    simp only at named ⊢
    split at named
    · exact named
    · exact ⟨named.1, named.2.1, contained named.2.2.1, named.2.2.2⟩

namespace Scan

variable {dialect : Dialect} {ends : List Nat} {base : Nat} {scope : String} {command : Command}

/-- What a command may amount to by itself, in a namespace and on a line. -/
inductive Amounts (scope : String) (line : Nat) : List Finding → Prop
  | nothing : Amounts scope line []
  | procedure (name arguments body : String) :
    Amounts scope line
      [.definition ⟨Name.qualify name scope, Name.namespaceOf (Name.qualify name scope), arguments,
        body, .procedure, line⟩]
  | member {kind : MethodKind} {name : String} (className arguments body : String)
      (unnamed : kind = .constructor ∨ kind = .destructor → name = "") :
    Amounts scope line
      [.classNamed (Name.qualify className scope),
        .definition ⟨name, Name.qualify className scope, arguments, body,
          .member kind (Name.qualify className scope), line⟩]
  | created (name : String) : Amounts scope line [.classNamed (Name.qualify name scope)]

/-- Constructors and destructors are written without a name. -/
theorem memberParts?_unnamed {kind : MethodKind} {words : List String}
    {className name arguments body : String}
    (parts : memberParts? kind words = some (className, name, arguments, body)) :
    kind = .constructor ∨ kind = .destructor → name = "" := by
  unfold memberParts? at parts
  split at parts <;> cases parts <;> simp

theorem amounts_ownFindings :
    Amounts scope (lineAt ends (base + command.offset))
      (ownFindings dialect ends base scope command) := by
  unfold ownFindings commandFindings
  split
  · exact .nothing
  · split
    · unfold procedureFindings
      split
      · exact .procedure _ _ _
      · exact .nothing
    · split
      · unfold memberFindings
        split
        · exact .nothing
        · split
          · exact .nothing
          · rename_i parts
            obtain ⟨words, -, parts⟩ := Option.bind_eq_some_iff.mp parts
            exact .member _ _ _ (memberParts?_unnamed parts)
      · split
        · exact .nothing
        · split
          · split
            · split <;> exact .nothing
            · exact .nothing
          · split
            · split
              · exact .created _
              · exact .nothing
            · exact .nothing

theorem Amounts.named {line : Nat} {findings : List Finding}
    (amounts : Amounts scope line findings) (absolute : Name.isAbsolute scope = true) :
    ∀ finding ∈ findings, finding.Named findings := by
  cases amounts with
  | nothing => exact nofun
  | procedure name arguments body =>
    rintro finding listed
    cases List.mem_singleton.mp listed
    exact Name.isAbsolute_qualify absolute name
  | member className arguments body unnamed =>
    have named := Name.isAbsolute_qualify absolute className
    rintro finding listed
    rcases List.mem_cons.mp listed with rfl | listed
    · exact named
    · cases List.mem_singleton.mp listed
      exact ⟨named, rfl, List.mem_cons_self, unnamed⟩
  | created name =>
    rintro finding listed
    cases List.mem_singleton.mp listed
    exact Name.isAbsolute_qualify absolute name

/-- The namespace that a command opens in an absolute one is absolute. -/
theorem namespaceBody?_absolute {body : Word} {inner : String}
    (opened : namespaceBody? dialect scope command = some (body, inner))
    (absolute : Name.isAbsolute scope = true) : Name.isAbsolute inner = true := by
  rw [namespaceBody?_eq] at opened
  obtain ⟨⟨name, word⟩, -, same⟩ := Option.map_eq_some_iff.mp opened
  cases same
  exact Name.isAbsolute_qualify absolute name

/-- **What is scanned in an absolute namespace has the names that its kind asks for.** -/
theorem scriptFindings_named (levels : Nat) :
    ∀ (script : String) (base : Nat) (scope : String), Name.isAbsolute scope = true →
      ∀ finding ∈ scriptFindings dialect ends levels script base scope,
        finding.Named (scriptFindings dialect ends levels script base scope) := by
  induction levels with
  | zero => exact fun _ _ _ _ _ listed => nomatch listed
  | succ levels ih =>
    intro script base scope absolute finding listed
    obtain ⟨command, parses, listed⟩ := of_mem_scriptFindings listed
    have contained : commandFindings dialect ends (scriptFindings dialect ends levels) base scope
        command ⊆ scriptFindings dialect ends (levels + 1) script base scope := by
      intro other among
      rw [scriptFindings]
      exact List.mem_flatMap.mpr ⟨_, parses, among⟩
    refine Finding.Named.among ?_ contained
    rw [commandFindings_eq] at listed ⊢
    split at listed
    · rename_i opened
      exact ih _ _ _ (namespaceBody?_absolute opened absolute) finding listed
    · exact amounts_ownFindings.named absolute finding listed

end Scan

/-! ## Results -/

/-- The result of a scan of a text with a number of lines. -/
structure ScanResult.WellFormed (result : ScanResult) (lines : Nat) : Prop where
  /-- A procedure belongs to no class and has an absolute name. -/
  procedures : ∀ definition ∈ result.procedures,
    definition.kind.className? = none ∧ [':', ':'] <+: definition.name.toList
  /-- A member stands in its class, which is listed and has an absolute name. -/
  members : ∀ definition ∈ result.members,
    ∃ className ∈ result.classes, definition.kind.className? = some className ∧
      definition.scope = className ∧ [':', ':'] <+: className.toList
  /-- Constructors and destructors have no name. -/
  unnamed : ∀ definition ∈ result.members, ∀ kind className,
    definition.kind = .member kind className → kind = .constructor ∨ kind = .destructor →
      definition.name = ""
  /-- No class is listed twice. -/
  distinct : result.classes.Nodup
  /-- The names of classes are absolute. -/
  classes : ∀ className ∈ result.classes, [':', ':'] <+: className.toList
  /-- The lines of the definitions ascend. -/
  ascending : (result.definitions.map Definition.line).Pairwise (· ≤ ·)
  /-- Each is a line of the text. -/
  counted : ∀ definition ∈ result.definitions, 1 ≤ definition.line ∧ definition.line ≤ lines

namespace ScanResult

variable {findings : List Finding} {definition : Definition}

theorem mem_definitions :
    definition ∈ (ofFindings findings).definitions ↔ .definition definition ∈ findings := by
  simp only [ofFindings, List.mem_filterMap]
  constructor
  · rintro ⟨finding, listed, same⟩
    cases finding with
    | definition other =>
      cases same
      exact listed
    | classNamed name => cases same
  · exact fun listed => ⟨_, listed, rfl⟩

theorem mem_classes {name : String} :
    name ∈ (ofFindings findings).classes ↔ .classNamed name ∈ findings := by
  simp only [ofFindings, List.mem_eraseDups, List.mem_filterMap]
  constructor
  · rintro ⟨finding, listed, same⟩
    cases finding with
    | definition other => cases same
    | classNamed other =>
      cases same
      exact listed
  · exact fun listed => ⟨_, listed, rfl⟩

/-- Where later ones are left out, each element is listed once. -/
theorem nodup_eraseDups {α : Type} [DecidableEq α] (elements : List α) :
    elements.eraseDups.Nodup := by
  cases elements with
  | nil => exact List.nodup_nil
  | cons first rest =>
    rw [List.eraseDups_cons, List.nodup_cons]
    refine ⟨fun again => ?_, nodup_eraseDups _⟩
    have kept := List.mem_filter.mp (List.mem_eraseDups.mp again)
    simp at kept
termination_by elements.length
decreasing_by
  have shorter := List.length_filter_le (fun element => !element == first) rest
  simp only [List.length_cons]
  omega

/-- Findings with the names that their kinds ask for, in order and on the lines of offsets in a text,
amount to a well-formed result. -/
theorem wellFormed_ofFindings {text : String}
    (named : ∀ finding ∈ findings, finding.Named findings)
    (between : ∀ finding ∈ findings,
      finding.Between (lineEnds 0 text.toList) 0 (octets text.toList))
    (inOrder : findings.Pairwise Finding.InOrder) :
    (ofFindings findings).WellFormed (lineCount text) where
  procedures definition listed := by
    obtain ⟨listed, free⟩ := List.mem_filter.mp listed
    have named := named _ (mem_definitions.mp listed)
    simp only [Finding.Named] at named
    cases kind : definition.kind with
    | procedure =>
      rw [kind] at named
      exact ⟨rfl, Name.isAbsolute_iff.mp named⟩
    | member _ _ =>
      rw [kind] at free
      cases free
  members definition listed := by
    obtain ⟨listed, belongs⟩ := List.mem_filter.mp listed
    have named := named _ (mem_definitions.mp listed)
    simp only [Finding.Named] at named
    cases kind : definition.kind with
    | procedure =>
      rw [kind] at belongs
      cases belongs
    | member _ className =>
      rw [kind] at named
      obtain ⟨absolute, stands, among, -⟩ := named
      exact ⟨className, mem_classes.mpr among, rfl, stands, Name.isAbsolute_iff.mp absolute⟩
  unnamed definition listed kind className is := by
    have named := named _ (mem_definitions.mp (List.mem_filter.mp listed).1)
    simp only [Finding.Named, is] at named
    exact named.2.2.2
  distinct := nodup_eraseDups _
  classes className listed := Name.isAbsolute_iff.mp (named _ (mem_classes.mp listed))
  ascending := by
    rw [List.pairwise_map, ofFindings, List.pairwise_filterMap]
    refine inOrder.imp fun {first second} order one found other foundToo => ?_
    cases first <;> cases found
    cases second <;> cases foundToo
    exact order _ _ rfl rfl
  counted definition listed := by
    obtain ⟨offset, -, inside, line⟩ := between _ (mem_definitions.mp listed) definition rfl
    rw [line]
    exact ⟨Nat.le_add_left _ _, lineOf_le_lineCount inside⟩

end ScanResult

/-- **Scan results are well formed.**  Whatever the script and the dialect are, procedures belong to
no class and have absolute names, members stand in their class, which is absolute and listed, and
have no name if they are constructors or destructors; the classes are absolute and listed once; and
the lines of the definitions ascend within the lines of the script. -/
theorem scan_wellFormed (source : String) (dialect : Dialect) :
    (scan source dialect).WellFormed (lineCount source) := by
  refine ScanResult.wellFormed_ofFindings ?_ ?_ ?_
  · exact Scan.scriptFindings_named _ _ _ _ rfl
  · intro finding listed
    have between := Scan.scriptFindings_between _ _ _ _ finding listed
    rwa [Nat.zero_add] at between
  · exact Scan.scriptFindings_inOrder (lineEnds_pairwise _ _) _ _ _ _

end CompiledScript
