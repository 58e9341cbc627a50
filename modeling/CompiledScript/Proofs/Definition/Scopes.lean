import CompiledScript.Proofs.Definition.Written
import Mathlib.Data.List.TakeWhile

/-!
# The namespaces of procedures

The namespace of a procedure is not recorded where it is known, but is taken from the name
of the procedure afterwards: it is what stands in front of the last separator.  Names may
have more colons than separate, and all of them belong to the separator they stand at.  So
every name that separates anything is a front that does not end in a colon, two colons or
more, and a last part in which nothing is separated, and the front is the namespace.

Where the front is empty, the name is that of a procedure in the global namespace.  This is
seen if the name starts with two colons.  If there are more of them, the namespace is the
empty text, which is no name of a namespace.  All other procedures have an absolute
namespace, and it is the one around them if their own name, as it is written, has no
colons in it and the name of the namespace does not end in one.
-/

set_option autoImplicit false

namespace CompiledScript

namespace Name

/-! ## Absolute names -/

theorem isAbsolute_iff {name : String} : isAbsolute name = true ↔ [':', ':'] <+: name.toList := by
  unfold isAbsolute
  split
  · rename_i rest starts
    rw [starts]
    exact iff_of_true rfl ⟨rest, rfl⟩
  · rename_i other
    refine iff_of_false Bool.false_ne_true ?_
    rintro ⟨rest, starts⟩
    exact other rest starts.symm

/-- A name in an absolute namespace stands for an absolute name. -/
theorem isAbsolute_qualify {scope : String} (absolute : isAbsolute scope = true) (name : String) :
    isAbsolute (qualify name scope) = true := by
  unfold qualify
  split
  · assumption
  · split
    · rw [isAbsolute_iff, String.toList_append]
      exact List.prefix_append _ _
    · rw [isAbsolute_iff, String.toList_append, String.toList_append, List.append_assoc]
      exact (isAbsolute_iff.mp absolute).trans (List.prefix_append _ _)

theorem isAbsolute_qualifyAll (names : List String) {scope : String}
    (absolute : isAbsolute scope = true) : isAbsolute (qualifyAll names scope) = true := by
  induction names generalizing scope with
  | nil => exact absolute
  | cons name names ih => exact ih (isAbsolute_qualify absolute name)

/-- A name without colons is not absolute. -/
theorem relative_of_no_colon {name : String} (plain : ':' ∉ name.toList) :
    isAbsolute name = false := by
  rw [Bool.eq_false_iff]
  intro absolute
  exact plain ((isAbsolute_iff.mp absolute).subset List.mem_cons_self)

/-! ## The parts of a name -/

/-- Nothing is separated in what stands behind a separator. -/
def Undivided (last : List Char) : Prop := ¬[':', ':'] <:+: ':' :: last

/-- A name is a front that does not end in a colon, a separator of some colons, and a last part in
which nothing is separated. -/
structure Divides (name front : List Char) (colons : Nat) (last : List Char) : Prop where
  whole : name = front ++ List.replicate colons ':' ++ last
  separates : 2 ≤ colons
  ends : front.getLast? ≠ some ':'
  undivided : Undivided last

/-- Two colons stand together in front of a colon where they are the first characters, or further
on. -/
theorem separated_cons {char : Char} {last : List Char} (more : List Char) :
    [':', ':'] <:+: char :: last ++ [':'] ↔
      (char = ':' ∧ ∃ rest, last ++ ':' :: more = ':' :: rest) ∨ [':', ':'] <:+: last ++ [':'] := by
  rw [List.cons_append, List.infix_cons_iff, List.cons_prefix_cons]
  cases last with
  | nil => simp [eq_comm]
  | cons next last => simp [eq_comm]

/-- From behind, the separator is found behind the last part, where two colons stand together first. -/
theorem beforeSeparator?_append {last : List Char} (undivided : ¬[':', ':'] <:+: last ++ [':'])
    (before : List Char) : beforeSeparator? (last ++ ':' :: ':' :: before) = some before := by
  induction last with
  | nil => rfl
  | cons char last ih =>
    rw [separated_cons (':' :: before), not_or] at undivided
    rw [List.cons_append, beforeSeparator?]
    · exact ih undivided.2
    · exact fun more colon starts => undivided.1 ⟨colon, more, starts⟩

theorem exists_of_beforeSeparator? {chars before : List Char}
    (found : beforeSeparator? chars = some before) :
    ∃ last, chars = last ++ ':' :: ':' :: before ∧ ¬[':', ':'] <:+: last ++ [':'] := by
  fun_induction beforeSeparator? chars with
  | case1 => cases found
  | case2 rest =>
    cases found
    exact ⟨[], rfl, by decide⟩
  | case3 char rest other ih =>
    obtain ⟨last, rfl, undivided⟩ := ih found
    refine ⟨char :: last, rfl, ?_⟩
    rw [separated_cons (':' :: before), not_or]
    exact ⟨fun ⟨colon, more, starts⟩ => other more colon starts, undivided⟩

theorem undivided_reverse {last : List Char} :
    Undivided last ↔ ¬[':', ':'] <:+: last.reverse ++ [':'] := by
  have backwards : [':', ':'] <:+: (':' :: last).reverse ↔ [':', ':'] <:+: ':' :: last :=
    @List.reverse_infix _ [':', ':'] (':' :: last)
  rw [Undivided, ← backwards, List.reverse_cons]

/-- **The namespace of a name is its front**, and where there is none, it is the global one if the
name starts with two colons and the empty text if it starts with more. -/
theorem namespaceOf_of_divides {name : String} {front last : List Char} {colons : Nat}
    (divides : Divides name.toList front colons last) :
    namespaceOf name = if front = [] ∧ colons = 2 then global else String.ofList front := by
  obtain ⟨more, rfl⟩ := Nat.exists_eq_add_of_le' divides.separates
  have backwards : name.toList.reverse =
      last.reverse ++ ':' :: ':' :: (List.replicate more ':' ++ front.reverse) := by
    rw [divides.whole, List.reverse_append, List.reverse_append, List.reverse_replicate,
      List.replicate_succ, List.replicate_succ]
    rfl
  have found : beforeSeparator? name.toList.reverse =
      some (List.replicate more ':' ++ front.reverse) := by
    rw [backwards]
    exact beforeSeparator?_append (undivided_reverse.mp divides.undivided) _
  have trimmed : (List.replicate more ':' ++ front.reverse).dropWhile (· == ':') =
      front.reverse := by
    rw [List.dropWhile_append_of_pos (by simp)]
    cases behind : front.reverse with
    | nil => rfl
    | cons char rest =>
      have ending : front.getLast? = some char := by
        rw [← List.head?_reverse, behind]
        rfl
      have other : char ≠ ':' := fun same => divides.ends (same ▸ ending)
      exact List.dropWhile_cons_of_neg (by simpa using other)
  unfold namespaceOf
  rw [found]
  cases before : List.replicate more ':' ++ front.reverse with
  | nil =>
    obtain ⟨none, empty⟩ := List.append_eq_nil_iff.mp before
    have none : more = 0 := by simpa using none
    have empty : front = [] := List.reverse_eq_nil_iff.mp empty
    rw [if_pos ⟨empty, by omega⟩]
  | cons char rest =>
    have something : ¬(front = [] ∧ more + 2 = 2) := by
      rintro ⟨rfl, none⟩
      obtain rfl : more = 0 := by omega
      cases before
    rw [if_neg something]
    simp only
    rw [← before, trimmed, List.reverse_reverse]

theorem exists_beforeSeparator? {chars : List Char} (separated : [':', ':'] <:+: chars) :
    ∃ before, beforeSeparator? chars = some before := by
  fun_induction beforeSeparator? chars with
  | case1 => simp at separated
  | case2 rest => exact ⟨rest, rfl⟩
  | case3 char rest other ih =>
    rcases List.infix_cons_iff.mp separated with ⟨more, starts⟩ | later
    · obtain ⟨rfl, rfl⟩ := List.cons.inj starts
      exact absurd rfl (other more rfl)
    · exact ih later

/-- A name that is absolute divides into its parts. -/
theorem exists_divides {name : String} (absolute : isAbsolute name = true) :
    ∃ front colons last, Divides name.toList front colons last := by
  have separated : [':', ':'] <:+: name.toList.reverse :=
    (@List.reverse_infix _ [':', ':'] _).mpr (isAbsolute_iff.mp absolute).isInfix
  obtain ⟨before, found⟩ := exists_beforeSeparator? separated
  obtain ⟨last, backwards, undivided⟩ := exists_of_beforeSeparator? found
  have colons : before.takeWhile (· == ':') =
      List.replicate (before.takeWhile (· == ':')).length ':' :=
    List.eq_replicate_of_mem fun char among => by simpa using List.mem_takeWhile_imp among
  refine ⟨(before.dropWhile (· == ':')).reverse, (before.takeWhile (· == ':')).length + 2,
    last.reverse, ?_, by omega, fun ending => ?_, ?_⟩
  · calc name.toList
      _ = (last ++ ':' :: ':' :: before).reverse := by
        rw [← backwards, List.reverse_reverse]
      _ = before.reverse ++ [':', ':'] ++ last.reverse := by
        simp
      _ = ((before.dropWhile (· == ':')).reverse ++ (before.takeWhile (· == ':')).reverse) ++
            [':', ':'] ++ last.reverse := by
        rw [← List.reverse_append, List.takeWhile_append_dropWhile]
      _ = (before.dropWhile (· == ':')).reverse ++
            List.replicate ((before.takeWhile (· == ':')).length + 2) ':' ++ last.reverse := by
        rw [colons, List.reverse_replicate, List.length_replicate, List.append_assoc _ _ [':', ':'],
          ← List.replicate_append_replicate]
        rfl
  · rw [List.getLast?_reverse] at ending
    have other := List.head?_dropWhile_not (· == ':') before
    rw [ending] at other
    simp at other
  · rwa [undivided_reverse, List.reverse_reverse]

/-! ## The namespace of a name -/

/-- The name of a namespace: the global one, or an absolute name that does not end in a colon. -/
def NamesNamespace (scope : String) : Prop :=
  scope = global ∨ ([':', ':'] <+: scope.toList ∧ scope.toList.getLast? ≠ some ':')

/-- The front of an absolute name is absolute, if there is one. -/
theorem Divides.absolute_front {name front last : List Char} {colons : Nat}
    (divides : Divides name front colons last) (absolute : [':', ':'] <+: name)
    (some_front : front ≠ []) : [':', ':'] <+: front := by
  obtain ⟨more, starts⟩ := absolute
  rw [divides.whole, List.append_assoc] at starts
  match front, some_front with
  | [char], _ =>
    -- A single colon would be a front that ends in one.
    obtain ⟨rfl, -⟩ := List.cons.inj starts
    exact absurd rfl divides.ends
  | char :: next :: rest, _ =>
    obtain ⟨rfl, further⟩ := List.cons.inj starts
    obtain ⟨rfl, -⟩ := List.cons.inj further
    exact ⟨rest, rfl⟩

theorem namespaceOf_names {name : String} (absolute : isAbsolute name = true) :
    namespaceOf name = "" ∨ NamesNamespace (namespaceOf name) := by
  obtain ⟨front, colons, last, divides⟩ := exists_divides absolute
  rw [namespaceOf_of_divides divides]
  split
  · exact .inr (.inl rfl)
  · by_cases none : front = []
    · subst none
      exact .inl rfl
    · refine .inr (.inr ?_)
      rw [String.toList_ofList]
      exact ⟨divides.absolute_front (isAbsolute_iff.mp absolute) none, divides.ends⟩

/-- The namespace of an absolute name is the empty text exactly if the name is three or more colons
in front of a last part. -/
theorem namespaceOf_eq_empty_iff {name : String} (absolute : isAbsolute name = true) :
    namespaceOf name = "" ↔
      ∃ colons last, 3 ≤ colons ∧ name.toList = List.replicate colons ':' ++ last ∧
        Undivided last := by
  constructor
  · intro empty
    obtain ⟨front, colons, last, divides⟩ := exists_divides absolute
    rw [namespaceOf_of_divides divides] at empty
    split at empty
    · exact absurd empty (by decide)
    · rename_i more
      obtain rfl : front = [] := String.ofList_eq_empty_iff.mp empty
      have separates := divides.separates
      have three : colons ≠ 2 := fun two => more ⟨rfl, two⟩
      exact ⟨colons, last, by omega, divides.whole, divides.undivided⟩
  · rintro ⟨colons, last, three, whole, undivided⟩
    have divides : Divides name.toList [] colons last := ⟨whole, by omega, nofun, undivided⟩
    rw [namespaceOf_of_divides divides, if_neg (by omega)]

/-- Where only the separator adds colons, the namespace of a name is the one it stands in. -/
theorem namespaceOf_qualify {owner scope : String} (plain : ':' ∉ owner.toList)
    (absolute : isAbsolute scope = true) (ends : scope.toList.getLast? ≠ some ':') :
    namespaceOf (qualify owner scope) = scope := by
  have notGlobal : scope ≠ global := by
    rintro rfl
    exact ends rfl
  have notEmpty : scope ≠ "" := by
    rintro rfl
    cases absolute
  have undivided : Undivided owner.toList := by
    intro separated
    rcases List.infix_cons_iff.mp separated with starts | later
    · exact plain ((List.cons_prefix_cons.mp starts).2.subset List.mem_cons_self)
    · exact plain (later.subset List.mem_cons_self)
  have divides : Divides (scope ++ "::" ++ owner).toList scope.toList 2 owner.toList := by
    refine ⟨?_, Nat.le_refl 2, ends, undivided⟩
    rw [String.toList_append, String.toList_append]
    rfl
  rw [qualify_of_inner (relative_of_no_colon plain) notGlobal notEmpty,
    namespaceOf_of_divides divides, if_neg, String.ofList_toList]
  exact fun front => notEmpty (String.toList_eq_nil_iff.mp front.1)

end Name

/-! ## The procedures of a scan -/

/-- What the namespace of a procedure is, which is recorded as a definition. -/
structure WrittenDefinition.NamespaceRecorded (written : WrittenDefinition)
    (definition : Definition) : Prop where
  /-- It is the empty text exactly if the name is three or more colons in front of a last part. -/
  empty_iff : definition.scope = "" ↔
    ∃ colons last, 3 ≤ colons ∧ definition.name.toList = List.replicate colons ':' ++ last ∧
      Name.Undivided last
  /-- All others name a namespace. -/
  names : definition.scope = "" ∨ Name.NamesNamespace definition.scope
  /-- It is the namespace around the procedure, where no further colons stand at the separator. -/
  enclosing : ':' ∉ written.owner.toList →
    (Name.qualifyAll written.namespaces Name.global).toList.getLast? ≠ some ':' →
      definition.scope = Name.qualifyAll written.namespaces Name.global

/-- **The namespace of a procedure is absolute, unless its name starts with further colons.**  A scan
records the definitions of a script as they are written, each resolved in the namespaces around it.
The namespace of a procedure is the global one, or an absolute name that does not end in a colon, or
the empty text; and it is the empty text exactly for the names that are three or more colons in front
of a last part.  If the name as it is written has no colons and that of the namespace around it does
not end in one, the namespace around it is recorded. -/
theorem recorded_namespaces (source : String) (dialect : Dialect) :
    (scan source dialect).definitions =
        (writtenIn source dialect).map (WrittenDefinition.definitionIn Name.global) ∧
      ∀ written ∈ writtenIn source dialect, ∀ definition,
        written.definitionIn Name.global = definition → definition.kind = .procedure →
          written.NamespaceRecorded definition := by
  refine ⟨scan_definitions source dialect, ?_⟩
  rintro written - _ rfl procedure
  have around : Name.isAbsolute (Name.qualifyAll written.namespaces Name.global) = true :=
    Name.isAbsolute_qualifyAll _ rfl
  have absolute := Name.isAbsolute_qualify around written.owner
  have unnamed : written.member? = none := by
    unfold WrittenDefinition.definitionIn at procedure
    split at procedure
    · assumption
    · cases procedure
  have named : (written.definitionIn Name.global).name =
      Name.qualify written.owner (Name.qualifyAll written.namespaces Name.global) := by
    simp only [WrittenDefinition.definitionIn, unnamed]
  have placed : (written.definitionIn Name.global).scope =
      Name.namespaceOf (written.definitionIn Name.global).name := by
    simp only [WrittenDefinition.definitionIn, unnamed]
  rw [← named] at absolute
  refine ⟨?_, ?_, fun plain ends => ?_⟩
  · rw [placed]
    exact Name.namespaceOf_eq_empty_iff absolute
  · rw [placed]
    exact Name.namespaceOf_names absolute
  · rw [placed, named]
    exact Name.namespaceOf_qualify plain around ends

/-- A script with colons in the names of namespaces and of a procedure. -/
def colonScript : String :=
  "namespace eval a:b \x7b\n  proc c \x7b\x7d \x7b\x7d\n" ++
    "  namespace eval ::d: \x7bproc e \x7b\x7d \x7b\x7d\x7d\n\x7d\nproc x:::y \x7b\x7d \x7b\x7d"

/-- The first procedure is recorded in the namespace around it. -/
theorem recorded_namespaces_colons :
    (⟨["a:b"], "c", none, "", "", 2⟩ : WrittenDefinition) ∈ writtenIn colonScript {} ∧
      ((⟨["a:b"], "c", none, "", "", 2⟩ : WrittenDefinition).definitionIn Name.global).kind =
        .procedure ∧
      (scan colonScript {}).definitions.map Definition.scope = ["::a:b", "::d", "::x"] ∧
      ((⟨["a:b"], "c", none, "", "", 2⟩ : WrittenDefinition).definitionIn Name.global).scope =
        "::a:b" := by
  have written : (⟨["a:b"], "c", none, "", "", 2⟩ : WrittenDefinition) ∈
      writtenIn colonScript {} := by decide +kernel
  have recorded := (recorded_namespaces colonScript {}).2 _ written _ rfl rfl
  exact ⟨written, rfl, by decide +kernel, recorded.enclosing (by decide) (by decide)⟩

/-! ### A name with a colon too many -/

/-- A procedure with a colon in front of its absolute name has the empty text for its namespace,
which is no name of a namespace. -/
theorem recorded_namespace_empty :
    (scan "proc :::f \x7b\x7d \x7b\x7d" {}).definitions = [⟨":::f", "", "", "", .procedure, 1⟩] ∧
      ¬Name.NamesNamespace "" := by
  refine ⟨by decide +kernel, ?_⟩
  rintro (global | ⟨absolute, -⟩)
  · exact absurd global (by decide)
  · exact absurd absolute (by decide)

end CompiledScript
