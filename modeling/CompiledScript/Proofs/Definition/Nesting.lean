import CompiledScript.Proofs.Definition.Composition
import CompiledScript.Proofs.Definition.Placement
import CompiledScript.Proofs.Definition.Written
import CompiledScript.Proofs.Script.Writing

/-!
# Scripts inside namespaces

A script whose braces balance may be put into the body of a namespace, the whole of it into
that of another one, and so on.  What it defines is then found at its place, on its own
line, with relative names under the names of the namespaces around it.

A scan gives up below a fixed number of bodies.  So the namespaces around a script leave
fewer levels for those that it opens itself, and if they leave none for the script, nothing
of it is found.
-/

set_option autoImplicit false

namespace CompiledScript

open Cursor

/-! ## Names without delimiters -/

/-- Whether a character may stand in the name of a namespace here. -/
def isPlain (char : Char) : Bool := char.isAlphanum || char == '_'

/-- A name of ASCII letters, digits and underscores, at least one of them. -/
structure PlainName (name : String) : Prop where
  some_char : name ≠ ""
  plain : name.toList.all isPlain = true

instance (name : String) : Decidable (PlainName name) :=
  decidable_of_iff (name ≠ "" ∧ name.toList.all isPlain = true)
    ⟨fun parts => ⟨parts.1, parts.2⟩, fun name => ⟨name.some_char, name.plain⟩⟩

section Plain

variable {char other : Char} {name : List Char}

theorem ne_of_plain (plain : isPlain char = true) (foreign : isPlain other = false) :
    char ≠ other := by
  rintro rfl
  rw [foreign] at plain
  cases plain

/-- A plain character neither is blank nor ends a word. -/
theorem plain_starts (plain : isPlain char = true) (offset : Nat) (rest : List Char) :
    skipBlanks offset (char :: rest) = ⟨offset, char :: rest⟩ ∧
      isWordEnd none (char :: rest) = false ∧ isCommandEnd none (char :: rest) = false := by
  have notHiding : ∀ behind, char = '\\' → rest = '\n' :: behind → False :=
    fun _ backslash => absurd backslash (ne_of_plain plain rfl)
  have notBlank : isBlank char = false := by
    rw [Bool.eq_false_iff]
    intro blank
    simp only [isBlank, Bool.or_eq_true, beq_iff_eq] at blank
    rcases blank with (((rfl | rfl) | rfl) | rfl) | rfl <;> cases plain
  have notLineEnd : char ≠ '\n' := ne_of_plain plain rfl
  have notSemicolon : char ≠ ';' := ne_of_plain plain rfl
  refine ⟨?_, ?_, ?_⟩
  · rw [skipBlanks.eq_3 _ _ _ notHiding, if_neg (by simp [notBlank])]
  · rw [isWordEnd_cons notHiding]
    simp [notBlank, notLineEnd, notSemicolon]
  · simp [isCommandEnd, notLineEnd, notSemicolon]

/-- Plain characters are read as they are. -/
theorem readBare_plain (inner : Substitution) (word : Nat) (all : name.all isPlain = true)
    {rest : List Char} (ends : isWordEnd none rest = true) (value : List Char) (offset : Nat) :
    readBare inner none word ⟨value, true⟩ offset (name ++ rest) =
      ⟨.ok ⟨name.reverse ++ value, true⟩, ⟨offset + octets name, rest⟩⟩ := by
  induction name generalizing value offset with
  | nil =>
    rw [List.nil_append, readBare.eq_def, if_pos ends]
    rfl
  | cons char name ih =>
    obtain ⟨plain, all⟩ := Bool.and_eq_true_iff.mp all
    have inside : ¬isWordEnd none (char :: (name ++ rest)) = true := by
      simp [(plain_starts plain offset (name ++ rest)).2.1]
    have notHiding : char ≠ '\\' := ne_of_plain plain rfl
    have notDollar : char ≠ '$' := ne_of_plain plain rfl
    have notBracket : char ≠ '[' := ne_of_plain plain rfl
    have element : readElement inner word ⟨value, true⟩ offset char (name ++ rest) =
        ⟨.ok ⟨char :: value, true⟩, ⟨offset + char.utf8Size, name ++ rest⟩⟩ := by
      simp [readElement, notHiding, notDollar, notBracket]
    rw [List.cons_append, readBare, if_neg inside]
    simp only [element]
    rw [ih all, octets_cons, Nat.add_assoc, List.reverse_cons, List.append_assoc]
    rfl

/-- A plain name is a bare word of itself. -/
theorem parseWord_plain (inner : Substitution) (nonempty : name ≠ [])
    (all : name.all isPlain = true) {rest : List Char} (ends : isWordEnd none rest = true)
    (offset : Nat) :
    parseWord inner none offset (name ++ rest) =
      ⟨.ok ⟨String.ofList name, true, .bare, offset⟩, ⟨offset + octets name, rest⟩⟩ := by
  have bare : parseWord inner none offset (name ++ rest) =
      parseBare inner none offset (name ++ rest) := by
    cases name with
    | nil => exact absurd rfl nonempty
    | cons char name =>
      have plain := (Bool.and_eq_true_iff.mp all).1
      rw [parseWord.eq_def]
      split
      · rename_i starts
        exact absurd (List.cons.inj starts).1 (ne_of_plain plain rfl)
      · rename_i starts
        exact absurd (List.cons.inj starts).1 (ne_of_plain plain rfl)
      · rename_i starts
        exact absurd (List.cons.inj starts).1 (ne_of_plain plain rfl)
      · rfl
  rw [bare, parseBare]
  simp only [readBare_plain inner offset all ends, List.append_nil, List.reverse_reverse, if_true]

/-- A plain name in a command is read up to the space behind it. -/
theorem parseWords_plain (inner : Substitution) (nonempty : name ≠ [])
    (all : name.all isPlain = true) (words : List Word) (offset : Nat) (rest : List Char) :
    parseWords inner none words offset (name ++ ' ' :: rest) =
      parseWords inner none (⟨String.ofList name, true, .bare, offset⟩ :: words)
        (offset + octets name + 1) rest := by
  have ends : isWordEnd none (' ' :: rest) = true := rfl
  have read := parseWord_plain inner nonempty all ends offset
  have space : skipBlanks (offset + octets name) (' ' :: rest) =
      skipBlanks (offset + octets name + 1) rest := rfl
  have starts : skipBlanks offset (name ++ ' ' :: rest) = ⟨offset, name ++ ' ' :: rest⟩ ∧
      isCommandEnd none (name ++ ' ' :: rest) = false := by
    cases name with
    | nil => exact absurd rfl nonempty
    | cons char name =>
      obtain ⟨blanks, -, inside⟩ :=
        plain_starts (Bool.and_eq_true_iff.mp all).1 offset (name ++ ' ' :: rest)
      exact ⟨blanks, inside⟩
  rw [parseWords_found_word inner starts.1 starts.2 read, parseWords, parseWords]
  simp only [space]

end Plain

/-! ## The body of a namespace -/

/-- What stands in front of a script in the body of a namespace. -/
def namespaceOpening (name : String) : String := "namespace eval " ++ name ++ " \x7b"

/-- A script as the body of a namespace. -/
def inNamespace (name script : String) : String := namespaceOpening name ++ script ++ "\x7d"

theorem toList_namespaceOpening (name : String) :
    (namespaceOpening name).toList = "namespace eval ".toList ++ (name.toList ++ [' ', '{']) := by
  have opening : " \x7b".toList = [' ', '{'] := rfl
  unfold namespaceOpening
  rw [String.toList_append, String.toList_append, opening, List.append_assoc]

theorem toList_inNamespace (name script : String) :
    (inNamespace name script).toList =
      (namespaceOpening name).toList ++ (script.toList ++ ['}']) := by
  have closing : "\x7d".toList = ['}'] := rfl
  unfold inNamespace
  rw [String.toList_append, String.toList_append, closing, List.append_assoc]

theorem octets_namespaceOpening (name : String) :
    octets (namespaceOpening name).toList = 15 + octets name.toList + 2 := by
  have words : octets "namespace eval ".toList = 15 := rfl
  have opening : octets [' ', '{'] = 2 := rfl
  rw [toList_namespaceOpening, octets_append, octets_append, words, opening, Nat.add_assoc]

/-- No line ends in front of the script. -/
theorem count_namespaceOpening {name : String} (plain : PlainName name) :
    (namespaceOpening name).toList.count '\n' = 0 := by
  have nowhere : '\n' ∉ name.toList := fun found =>
    ne_of_plain (List.all_eq_true.mp plain.plain _ found) rfl rfl
  have words : "namespace eval ".toList.count '\n' = 0 := rfl
  have opening : [' ', '{'].count '\n' = 0 := rfl
  rw [toList_namespaceOpening, List.count_append, List.count_append,
    List.count_eq_zero.mpr nowhere, words, opening]

theorem openBehind?_plain {name : List Char} (all : name.all isPlain = true) (opened : Nat) :
    openBehind? opened name = some opened := by
  induction name with
  | nil => rfl
  | cons char name ih =>
    obtain ⟨plain, all⟩ := Bool.and_eq_true_iff.mp all
    rw [openBehind?_cons (ne_of_plain plain rfl) (ne_of_plain plain rfl) (ne_of_plain plain rfl),
      ih all]

/-- A continued line behind a text without backslashes is continued behind all of it. -/
theorem continued_behind {front back : List Char} (plain : '\\' ∉ front)
    (continued : ['\\', '\n'] <:+: front ++ back) : ['\\', '\n'] <:+: back := by
  induction front with
  | nil => exact continued
  | cons char front ih =>
    rw [List.mem_cons, not_or] at plain
    rcases List.infix_cons_iff.mp continued with ⟨behind, starts⟩ | later
    · exact absurd (List.cons.inj starts).1 plain.1
    · exact ih plain.2 later

/-- What may stand between braces may stand there in the body of a namespace, too. -/
theorem Braceable.inNamespace {name script : String} (plain : PlainName name)
    (braceable : Braceable script.toList) : Braceable (inNamespace name script).toList where
  balanced := by
    have words : openBehind? 0 "namespace eval ".toList = some 0 := rfl
    have body := openBehind?_add braceable.balanced 1
    rw [toList_inNamespace, toList_namespaceOpening, List.append_assoc, List.append_assoc,
      openBehind?_append words, openBehind?_append (openBehind?_plain plain.plain 0)]
    exact openBehind?_append body ['}']
  whole continued := by
    have nowhere : '\\' ∉ name.toList := fun found =>
      ne_of_plain (List.all_eq_true.mp plain.plain _ found) rfl rfl
    have words : '\\' ∉ "namespace eval ".toList := by decide
    have opening : '\\' ∉ (namespaceOpening name).toList := by
      rw [toList_namespaceOpening, List.mem_append, List.mem_append, not_or, not_or]
      exact ⟨words, nowhere, by decide⟩
    rw [toList_inNamespace] at continued
    -- The line end of a continued line is not the closing brace.
    rcases List.infix_concat_iff.mp (continued_behind opening continued) with ⟨front, ends⟩ | inside
    · have last := congrArg List.getLast? ends
      simp at last
    · exact braceable.whole inside

/-! ## The command that opens a namespace -/

/-- The command that runs a script in a namespace. -/
def openingCommand (name script : String) : Command :=
  ⟨[⟨"namespace", true, .bare, 0⟩, ⟨"eval", true, .bare, 10⟩, ⟨name, true, .bare, 15⟩,
    ⟨script, true, .braced, 16 + octets name.toList⟩], 0⟩

theorem parseWords_inNamespace (inner : Substitution) {name script : String}
    (plain : PlainName name) (braceable : Braceable script.toList) :
    ∃ stop, parseWords inner none [] 0 (inNamespace name script).toList =
      ⟨.ok (openingCommand name script).words, ⟨stop, []⟩⟩ := by
  have nonempty : name.toList ≠ [] := fun empty =>
    plain.some_char (String.toList_eq_nil_iff.mp empty)
  have words : "namespace eval ".toList = "namespace".toList ++ ' ' :: ("eval".toList ++ [' ']) := rfl
  have split : (inNamespace name script).toList = "namespace".toList ++ ' ' :: ("eval".toList ++
      ' ' :: (name.toList ++ ' ' :: '{' :: (script.toList ++ ['}']))) := by
    rw [toList_inNamespace, toList_namespaceOpening, words]
    simp only [List.append_assoc, List.cons_append, List.nil_append]
  have ends : isWordEnd none [] = true := rfl
  have body := parseWord_braceable inner braceable ends (16 + octets name.toList)
  have first : String.ofList "namespace".toList = "namespace" := String.ofList_toList
  have second : String.ofList "eval".toList = "eval" := String.ofList_toList
  have behind : 0 + octets "namespace".toList + 1 = 10 := rfl
  have further : 10 + octets "eval".toList + 1 = 15 := rfl
  have stands : 15 + octets name.toList + 1 = 16 + octets name.toList := by omega
  rw [split, parseWords_plain inner (by decide) (by decide), behind,
    parseWords_plain inner (by decide) (by decide), further,
    parseWords_plain inner nonempty plain.plain, stands, parseWords_found_word inner rfl rfl body,
    parseWords_ended inner rfl rfl, first, second, String.ofList_toList, String.ofList_toList]
  exact ⟨_, rfl⟩

/-- The body of a namespace is one command, in which the script stands as it is. -/
theorem parseScript_inNamespace {name script : String} (plain : PlainName name)
    (braceable : Braceable script.toList) :
    parseScript (inNamespace name script) = [.ok (openingCommand name script)] := by
  obtain ⟨stop, read⟩ := parseWords_inNamespace
    (.within (inNamespace name script).toList.length) plain braceable
  have starts : (inNamespace name script).toList = 'n' :: ("amespace eval ".toList ++
      (name.toList ++ [' ', '{'] ++ (script.toList ++ ['}']))) := by
    rw [toList_inNamespace, toList_namespaceOpening, List.append_assoc]
    rfl
  refine commandsFrom_single ?_ ?_ read
  · rw [starts]
    rfl
  · rw [starts]
    rfl

theorem PlainName.relative {name : String} (plain : PlainName name) :
    Name.isAbsolute name = false := by
  have all := plain.plain
  unfold Name.isAbsolute
  split
  · rename_i starts
    rw [starts] at all
    cases all
  · rfl

namespace Scan

variable {ends : List Nat}

/-- The body of a namespace is scanned as the script that it is, where it stands. -/
theorem scriptFindings_inNamespace {name script : String} (plain : PlainName name)
    (braceable : Braceable script.toList) (levels base : Nat) (scope : String) :
    scriptFindings {} ends (levels + 1) (inNamespace name script) base scope =
      scriptFindings {} ends levels script (base + octets (namespaceOpening name).toList)
        (Name.qualify name scope) := by
  have opens : opened? {} (openingCommand name script) =
      some (name, ⟨script, true, .braced, 16 + octets name.toList⟩) := rfl
  have stands : 16 + octets name.toList + 1 = octets (namespaceOpening name).toList := by
    rw [octets_namespaceOpening]
    omega
  rw [scriptFindings, parseScript_inNamespace plain braceable, List.flatMap_singleton]
  simp only
  rw [commandFindings_eq, namespaceBody?_eq, opens, ← stands]
  rfl

end Scan

/-! ## Namespaces around each other -/

/-- A script inside namespaces, the first of which is around all others. -/
def nest : (names : List String) → (script : String) → String
  | [], script => script
  | name :: names, script => inNamespace name (nest names script)

/-- What stands in front of a script inside namespaces. -/
def nestOpening (names : List String) : List Char :=
  names.flatMap fun name => (namespaceOpening name).toList

theorem nestOpening_cons (name : String) (names : List String) :
    nestOpening (name :: names) = (namespaceOpening name).toList ++ nestOpening names :=
  List.flatMap_cons

theorem toList_nest (names : List String) (script : String) :
    (nest names script).toList =
      nestOpening names ++ (script.toList ++ List.replicate names.length '}') := by
  induction names with
  | nil => exact (List.append_nil _).symm
  | cons name names ih =>
    rw [nest, toList_inNamespace, ih, nestOpening_cons, List.length_cons, List.replicate_succ']
    simp only [List.append_assoc]

section Nest

variable {names : List String} {script : String}

theorem count_nestOpening (plain : ∀ name ∈ names, PlainName name) :
    (nestOpening names).count '\n' = 0 := by
  induction names with
  | nil => rfl
  | cons name names ih =>
    obtain ⟨namePlain, plain⟩ := List.forall_mem_cons.mp plain
    rw [nestOpening_cons, List.count_append, count_namespaceOpening namePlain, ih plain]

theorem Braceable.nest (plain : ∀ name ∈ names, PlainName name)
    (braceable : Braceable script.toList) : Braceable (nest names script).toList := by
  induction names with
  | nil => exact braceable
  | cons name names ih =>
    obtain ⟨namePlain, plain⟩ := List.forall_mem_cons.mp plain
    exact (ih plain).inNamespace namePlain

namespace Scan

variable {ends : List Nat}

/-- A script inside namespaces is scanned where it stands, with fewer levels left. -/
theorem scriptFindings_nest (plain : ∀ name ∈ names, PlainName name)
    (braceable : Braceable script.toList) (levels base : Nat) (scope : String) :
    scriptFindings {} ends (levels + names.length) (nest names script) base scope =
      scriptFindings {} ends levels script (base + octets (nestOpening names))
        (Name.qualifyAll names scope) := by
  induction names generalizing base scope with
  | nil => rfl
  | cons name names ih =>
    obtain ⟨namePlain, plain⟩ := List.forall_mem_cons.mp plain
    rw [nest, List.length_cons, ← Nat.add_assoc,
      scriptFindings_inNamespace namePlain (braceable.nest plain), ih plain, Nat.add_assoc,
      ← octets_append, ← nestOpening_cons]
    rfl

/-- Inside as many namespaces as there are levels, nothing is found. -/
theorem scriptFindings_nest_beyond (plain : ∀ name ∈ names, PlainName name)
    (braceable : Braceable script.toList) {levels : Nat} (beyond : levels ≤ names.length)
    (base : Nat) (scope : String) :
    scriptFindings {} ends levels (nest names script) base scope = [] := by
  induction levels generalizing names base scope with
  | zero => rfl
  | succ levels ih =>
    cases names with
    | nil => exact absurd beyond (Nat.not_succ_le_zero _)
    | cons name names =>
      obtain ⟨namePlain, plain⟩ := List.forall_mem_cons.mp plain
      rw [nest, scriptFindings_inNamespace namePlain (braceable.nest plain)]
      exact ih plain (Nat.le_of_succ_le_succ beyond) _ _

/-- Inside namespaces every command stands on the line on which it stands in the script. -/
theorem scriptFindings_nest_lines (plain : ∀ name ∈ names, PlainName name) (levels : Nat)
    (scope : String) :
    scriptFindings {} (lineEnds 0 (nest names script).toList) levels script
        (0 + octets (nestOpening names)) scope =
      scriptFindings {} (lineEnds 0 script.toList) levels script 0 scope := by
  have agree : ∀ offset ≤ octets script.toList,
      lineAt (lineEnds 0 (nest names script).toList) (0 + octets (nestOpening names) + offset) =
        lineAt (lineEnds 0 script.toList) (0 + offset) + 0 := by
    intro offset inside
    rw [Nat.zero_add, Nat.zero_add, toList_nest, lineAt_append_right, lineAt_append_left inside,
      count_nestOpening plain]
  rw [scriptFindings_lower levels agree, map_lower_zero]

end Scan

/-- Inside namespaces the definitions of a script are found under the names of these namespaces. -/
theorem scan_nest_definitions (plain : ∀ name ∈ names, PlainName name)
    (braceable : Braceable script.toList) (room : names.length ≤ Scan.maxNesting)
    (nests : Scan.nestsWithin {} (Scan.maxNesting - names.length) script = true) :
    (scan (nest names script) {}).definitions =
      (writtenIn script {}).map fun written =>
        if written.isRelative then
          (written.definitionIn Name.global).under (Name.enclosing names)
        else written.definitionIn Name.global := by
  -- The levels that the namespaces take are not missed, as the script does not nest so deeply.
  have levels : Scan.maxNesting + 1 = Scan.maxNesting - names.length + 1 + names.length := by omega
  have relative : ∀ name ∈ names, Name.isAbsolute name = false ∧ name ≠ "" :=
    fun name listed => ⟨(plain name listed).relative, (plain name listed).some_char⟩
  have follows := Name.follows_qualifyAll relative
  have same : Scan.writtenDefinitions {} (lineEnds 0 script.toList)
      (Scan.maxNesting - names.length + 1) script 0 = writtenIn script {} :=
    Scan.writtenDefinitions_levels nests (Nat.lt_succ_self _) (by omega) 0
  change (Scan.scriptFindings {} _ _ _ _ _).filterMap Finding.definition? = _
  rw [levels, Scan.scriptFindings_nest plain braceable, Scan.scriptFindings_nest_lines plain,
    Scan.scriptFindings_definitions, same]
  refine List.map_congr_left fun written listed => ?_
  exact written.definitionIn_follows follows (Scan.writtenDefinitions_named nests _ _ _ listed)

/-- **Namespaces around a script put their names in front of what it defines.**  Inside namespaces
with plain names, as many of them as a scan follows together with those that the script opens itself,
just the definitions of the script are found, in order and on their lines.  A name that is resolved
through relative names only is the one that it is without the namespaces, under their names, and any
other is the same.  A procedure stands in the namespace of its name, and a member in its class.
Inside more namespaces nothing is found. -/
theorem nested_definitions (plain : ∀ name ∈ names, PlainName name)
    (braceable : Braceable script.toList) :
    (names.length ≤ Scan.maxNesting →
      Scan.nestsWithin {} (Scan.maxNesting - names.length) script = true →
        (scan script {}).definitions =
            (writtenIn script {}).map (WrittenDefinition.definitionIn Name.global) ∧
          (scan (nest names script) {}).definitions =
            (writtenIn script {}).map fun written =>
              if written.isRelative then
                (written.definitionIn Name.global).under (Name.enclosing names)
              else written.definitionIn Name.global) ∧
      (∀ definition ∈ (scan (nest names script) {}).definitions, definition.Placed) ∧
      (Scan.maxNesting < names.length → scan (nest names script) {} = ⟨[], []⟩) := by
  refine ⟨fun room nests => ?_, fun definition found => scan_placed found, fun beyond => ?_⟩
  · exact ⟨scan_definitions script {}, scan_nest_definitions plain braceable room nests⟩
  · rw [scan, Scan.scriptFindings_nest_beyond plain braceable beyond]
    rfl

/-- A script with names of all kinds: relative and absolute ones, and ones in namespaces of relative
and absolute names. -/
def mixedScript : String :=
  "proc f x y\nnamespace eval c \x7boo::define D destructor z\nproc ::g x y\x7d\n" ++
    "namespace eval ::e \x7bproc h x y\x7d"

/-- Two of the names in the script are relative, and the two others stay as they are.  A procedure
inside one namespace too many is not found. -/
theorem nested_definitions_mixed :
    (∀ name ∈ ["a", "b_2"], PlainName name) ∧ Braceable mixedScript.toList ∧
      Scan.nestsWithin {} 254 mixedScript = true ∧
      (scan (nest ["a", "b_2"] mixedScript) {}).definitions =
        [⟨"::a::b_2::f", "::a::b_2", "x", "y", .procedure, 1⟩,
          ⟨"", "::a::b_2::c::D", "", "z", .member .destructor "::a::b_2::c::D", 2⟩,
          ⟨"::g", "::", "x", "y", .procedure, 3⟩,
          ⟨"::e::h", "::e", "x", "y", .procedure, 4⟩] ∧
      scan (nest (List.replicate 257 "a") "proc f x y") {} = ⟨[], []⟩ := by
  have plain : ∀ name ∈ ["a", "b_2"], PlainName name := by decide +kernel
  have braceable : Braceable mixedScript.toList := by decide +kernel
  have nests : Scan.nestsWithin {} 254 mixedScript = true := by decide +kernel
  obtain ⟨inside, -, -⟩ := nested_definitions plain braceable
  obtain ⟨-, definitions⟩ := inside (by decide) nests
  have same : ∀ name ∈ List.replicate 257 "a", PlainName name := by
    intro name listed
    rw [List.eq_of_mem_replicate listed]
    decide +kernel
  have simple : Braceable "proc f x y".toList := by decide +kernel
  obtain ⟨-, -, beyond⟩ := nested_definitions same simple
  refine ⟨plain, braceable, nests, ?_, beyond (by rw [List.length_replicate]; decide)⟩
  rw [definitions]
  decide +kernel

end Nest

end CompiledScript
