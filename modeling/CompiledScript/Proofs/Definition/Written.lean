import CompiledScript.Proofs.Definition.Lines

/-!
# Definitions as they are written

What a script defines does not depend on the namespace it is run in, only the names do.  So a
definition is told here by the names as they are written: that of the procedure or class,
and those of the namespaces around it.  In a namespace they are resolved one after the
other, from the outside to the inside.

A name that is resolved through relative names only follows the namespace it is resolved
in, and one that is absolute, or stands in a namespace of an absolute name, does not.  The
names of namespaces must not be empty for this: a namespace without a name is the global
one, but in another namespace it is one more colon away.
-/

set_option autoImplicit false

namespace CompiledScript

/-! ## Relative names -/

namespace Name

/-- The name that names stand for when each is resolved in the namespace of those in front of it. -/
def qualifyAll (names : List String) (scope : String) : String :=
  names.foldl (fun scope name => qualify name scope) scope

theorem qualify_of_absolute {name : String} (absolute : isAbsolute name = true) (scope : String) :
    qualify name scope = name := by
  rw [qualify, if_pos absolute]

theorem qualify_global {name : String} (relative : isAbsolute name = false) :
    qualify name global = "::" ++ name := by
  rw [qualify, if_neg (by simp [relative]), if_pos (.inl rfl)]

theorem qualify_of_inner {name scope : String} (relative : isAbsolute name = false)
    (notGlobal : scope ≠ global) (notEmpty : scope ≠ "") :
    qualify name scope = scope ++ "::" ++ name := by
  rw [qualify, if_neg (by simp [relative]), if_neg (by simp [notGlobal, notEmpty])]

/-- What a name with some character stands for is longer than the separator. -/
theorem length_qualify {name : String} (relative : isAbsolute name = false) (named : name ≠ "")
    (scope : String) : 2 < (qualify name scope).length := by
  have some_char : 0 < name.length :=
    Nat.pos_of_ne_zero fun empty => named (String.length_eq_zero_iff.mp empty)
  have separator : "::".length = 2 := rfl
  rw [qualify, if_neg (by simp [relative])]
  split
  · rw [String.length_append, separator]
    omega
  · rw [String.length_append, String.length_append, separator]
    omega

/-- So it is not the global namespace, and names in it are put behind it. -/
theorem qualify_qualified {name inner : String} (relative : isAbsolute name = false)
    (named : name ≠ "") (innerRelative : isAbsolute inner = false) (scope : String) :
    qualify inner (qualify name scope) = qualify name scope ++ ("::" ++ inner) := by
  have long := length_qualify relative named scope
  have unlike {short : String} (within : short.length ≤ 2) : qualify name scope ≠ short := by
    rintro rfl
    exact absurd long (Nat.not_lt.mpr within)
  have notGlobal : qualify name scope ≠ global := unlike (by decide)
  have notEmpty : qualify name scope ≠ "" := unlike (by decide)
  rw [qualify_of_inner innerRelative notGlobal notEmpty, String.append_assoc]

/-- Relative names stand in one namespace for what they stand for in another one, with something
put in front. -/
def Follows (front alone nested : String) : Prop :=
  ∀ name, isAbsolute name = false → qualify name nested = front ++ qualify name alone

/-- What follows goes on to follow inside a namespace with a relative name. -/
theorem Follows.inside {front alone nested name : String} (follows : Follows front alone nested)
    (relative : isAbsolute name = false) (named : name ≠ "") :
    Follows front (qualify name alone) (qualify name nested) := by
  intro inner innerRelative
  rw [qualify_qualified relative named innerRelative, qualify_qualified relative named innerRelative,
    follows name relative, String.append_assoc]

/-- The names of namespaces around each other as they stand in front of a name. -/
def enclosing : (names : List String) → String
  | [] => ""
  | name :: names => "::" ++ name ++ enclosing names

/-- Inside namespaces with relative names, names follow the global namespace. -/
theorem follows_qualifyAll {names : List String}
    (relative : ∀ name ∈ names, isAbsolute name = false ∧ name ≠ "") :
    Follows (enclosing names) global (qualifyAll names global) := by
  -- The namespace moves inwards while the global one stays, so what is in front grows with each name.
  suffices onwards : ∀ {front nested : String}, Follows front global nested →
      Follows (front ++ enclosing names) global (qualifyAll names nested) by
    have itself : Follows "" global global := fun name _ => String.empty_append.symm
    have whole := onwards itself
    rwa [String.empty_append] at whole
  induction names with
  | nil =>
    intro front nested follows
    rwa [enclosing, String.append_empty]
  | cons name names ih =>
    intro front nested follows
    obtain ⟨⟨nameRelative, named⟩, relative⟩ := List.forall_mem_cons.mp relative
    have further : Follows (front ++ ("::" ++ name)) global (qualify name nested) := by
      intro inner innerRelative
      rw [qualify_qualified nameRelative named innerRelative, follows name nameRelative,
        qualify_global nameRelative, qualify_global innerRelative]
    have rest := ih relative further
    rwa [String.append_assoc] at rest

/-- A name follows if neither it nor a namespace around it is absolute, and stays the same
otherwise. -/
theorem Follows.qualifyAll {front alone nested : String} (follows : Follows front alone nested)
    {names : List String} (named : ∀ name ∈ names, name ≠ "") (owner : String) :
    qualify owner (qualifyAll names nested) =
      if (owner :: names).all fun name => !isAbsolute name then
        front ++ qualify owner (qualifyAll names alone)
      else qualify owner (qualifyAll names alone) := by
  induction names generalizing alone nested with
  | nil =>
    cases absolute : isAbsolute owner with
    | true =>
      rw [qualify_of_absolute absolute, qualify_of_absolute absolute]
      simp [absolute]
    | false =>
      simp only [List.all_cons, absolute, Bool.not_false, List.all_nil, Bool.and_self, if_true]
      exact follows owner absolute
  | cons name names ih =>
    obtain ⟨nameNamed, named⟩ := List.forall_mem_cons.mp named
    cases absolute : isAbsolute name with
    | true =>
      -- An absolute name leads to the same namespace from everywhere.
      have same : qualify name nested = qualify name alone := by
        rw [qualify_of_absolute absolute, qualify_of_absolute absolute]
      change qualify owner (Name.qualifyAll names (qualify name nested)) = _
      rw [same]
      simp only [List.all_cons, absolute, Bool.not_true, Bool.false_and, Bool.and_false,
        Bool.false_eq_true, if_false]
      rfl
    | false =>
      have inner := ih (follows.inside absolute nameNamed) named
      simp only [List.all_cons, absolute, Bool.not_false, Bool.true_and] at inner ⊢
      exact inner

end Name

/-! ## Definitions -/

/-- A definition with its names as they are written. -/
structure WrittenDefinition where
  /-- The namespaces around it, the outermost first. -/
  namespaces : List String
  /-- The name of the procedure, or that of the class that a member is added to. -/
  owner : String
  /-- What kind of member it is, and its name. -/
  member? : Option (MethodKind × String)
  arguments : String
  body : String
  line : Nat
deriving DecidableEq, Inhabited, Repr

namespace WrittenDefinition

/-- The definition, in a namespace with a name around all others. -/
def inside (name : String) (written : WrittenDefinition) : WrittenDefinition :=
  { written with namespaces := name :: written.namespaces }

/-- What is defined if the script is run in a namespace. -/
def definitionIn (scope : String) (written : WrittenDefinition) : Definition :=
  let owner := Name.qualify written.owner (Name.qualifyAll written.namespaces scope)
  match written.member? with
  | none =>
    ⟨owner, Name.namespaceOf owner, written.arguments, written.body, .procedure, written.line⟩
  | some (kind, name) =>
    ⟨name, owner, written.arguments, written.body, .member kind owner, written.line⟩

/-- Whether the name is resolved through relative names only. -/
def isRelative (written : WrittenDefinition) : Bool :=
  (written.owner :: written.namespaces).all fun name => !Name.isAbsolute name

end WrittenDefinition

/-- The definition, with something put in front of the name of the procedure or class. -/
def Definition.under (front : String) (definition : Definition) : Definition :=
  match definition.kind with
  | .procedure =>
    { definition with
      name := front ++ definition.name
      scope := Name.namespaceOf (front ++ definition.name) }
  | .member kind className =>
    { definition with
      scope := front ++ className
      kind := .member kind (front ++ className) }

/-- In a namespace that is followed, a definition has its name under the namespace if the name is
relative, and is the same otherwise. -/
theorem WrittenDefinition.definitionIn_follows {front nested : String}
    (follows : Name.Follows front Name.global nested) {written : WrittenDefinition}
    (named : ∀ name ∈ written.namespaces, name ≠ "") :
    written.definitionIn nested =
      if written.isRelative then (written.definitionIn Name.global).under front
      else written.definitionIn Name.global := by
  have owner := follows.qualifyAll named written.owner
  unfold definitionIn isRelative Definition.under
  rw [owner]
  split <;> cases written.member? <;> rfl

/-! ## Scans -/

namespace Scan

variable {dialect : Dialect} {ends : List Nat} {base : Nat} {scope : String} {command : Command}

/-- The namespace that a command opens, as its name is written, and the body that is scanned in it. -/
def opened? (dialect : Dialect) (command : Command) : Option (String × Word) :=
  match literalWord? command 0, literalWord? command 1 with
  | some first, some second =>
    if !dialect.isProcedure first && !dialect.isMember first &&
        dialect.isNamespaceEval first second then
      match command.words with
      | [_, _, inner, body] =>
        match inner.literal?, body.literal? with
        | some inner, some _ => some (inner, body)
        | _, _ => none
      | _ => none
    else none
  | _, _ => none

theorem namespaceBody?_eq :
    namespaceBody? dialect scope command =
      (opened? dialect command).map fun opened => (opened.2, Name.qualify opened.1 scope) := by
  unfold namespaceBody? opened?
  cases literalWord? command 0 with
  | none => rfl
  | some first =>
    cases literalWord? command 1 with
    | none => rfl
    | some second =>
      simp only
      split
      · generalize command.words = words
        rcases words with _ | ⟨_, _ | ⟨_, _ | ⟨inner, _ | ⟨body, _ | _⟩⟩⟩⟩
        case cons.cons.cons.cons.nil =>
          simp only
          cases inner.literal? with
          | none => rfl
          | some name => cases body.literal? <;> rfl
        all_goals rfl
      · rfl

/-- The procedure that a command defines, as it is written. -/
def writtenProcedure? (command : Command) (line : Nat) : Option WrittenDefinition :=
  match literalWords? command with
  | some [_, name, arguments, body] => some ⟨[], name, none, arguments, body, line⟩
  | _ => none

/-- The member that a command adds to a class, as it is written. -/
def writtenMember? (dialect : Dialect) (command : Command) (line : Nat) :
    Option WrittenDefinition :=
  match (literalWord? command 2).bind dialect.memberKind? with
  | none => none
  | some kind =>
    match (literalWords? command).bind (memberParts? kind) with
    | none => none
    | some (className, name, arguments, body) =>
      some ⟨[], className, some (kind, name), arguments, body, line⟩

/-- The definition that a command makes by itself, as it is written. -/
def written? (dialect : Dialect) (command : Command) (line : Nat) : Option WrittenDefinition :=
  match literalWord? command 0 with
  | none => none
  | some first =>
    if dialect.isProcedure first then writtenProcedure? command line
    else if dialect.isMember first then writtenMember? dialect command line
    else none

theorem procedureFindings_definitions (line : Nat) :
    (procedureFindings command scope line).filterMap Finding.definition? =
      ((writtenProcedure? command line).map (WrittenDefinition.definitionIn scope)).toList := by
  unfold procedureFindings writtenProcedure?
  rcases literalWords? command with
    _ | (_ | ⟨_, _ | ⟨name, _ | ⟨arguments, _ | ⟨body, _ | _⟩⟩⟩⟩) <;> rfl

theorem memberFindings_definitions (line : Nat) :
    (memberFindings dialect command scope line).filterMap Finding.definition? =
      ((writtenMember? dialect command line).map (WrittenDefinition.definitionIn scope)).toList := by
  unfold memberFindings writtenMember?
  cases (literalWord? command 2).bind dialect.memberKind? with
  | none => rfl
  | some kind =>
    simp only
    cases (literalWords? command).bind (memberParts? kind) <;> rfl

theorem ownFindings_definitions :
    (ownFindings dialect ends base scope command).filterMap Finding.definition? =
      ((written? dialect command (lineAt ends (base + command.offset))).map
        (WrittenDefinition.definitionIn scope)).toList := by
  unfold ownFindings commandFindings written?
  cases literalWord? command 0 with
  | none => rfl
  | some first =>
    simp only
    cases dialect.isProcedure first with
    | true => exact procedureFindings_definitions _
    | false =>
      cases dialect.isMember first with
      | true => exact memberFindings_definitions _
      | false =>
        -- A class that is created is no definition, and neither is the body of a namespace.
        simp only [Bool.false_eq_true, if_false]
        split
        · rfl
        · split
          · split
            · split <;> rfl
            · rfl
          · split
            · split <;> rfl
            · rfl

/-- The definitions of a script as they are written, in which namespaces are followed down to
`levels` levels. -/
def writtenDefinitions (dialect : Dialect) (ends : List Nat) :
    (levels : Nat) → (script : String) → (base : Nat) → List WrittenDefinition
  | 0, _, _ => []
  | levels + 1, script, base =>
    (parseScript script).flatMap fun parsed =>
      match parsed with
      | .error _ => []
      | .ok command =>
        match opened? dialect command with
        | some (name, body) =>
          (writtenDefinitions dialect ends levels body.value (base + contentOffset body)).map
            (WrittenDefinition.inside name)
        | none => (written? dialect command (lineAt ends (base + command.offset))).toList

/-- A scan resolves the definitions as they are written, in the namespace it starts in. -/
theorem scriptFindings_definitions (levels : Nat) (script : String) (base : Nat) (scope : String) :
    (scriptFindings dialect ends levels script base scope).filterMap Finding.definition? =
      (writtenDefinitions dialect ends levels script base).map
        (WrittenDefinition.definitionIn scope) := by
  induction levels generalizing script base scope with
  | zero => rfl
  | succ levels ih =>
    rw [scriptFindings, writtenDefinitions, List.filterMap_flatMap, List.map_flatMap]
    congr 1
    funext parsed
    cases parsed with
    | error error => rfl
    | ok command =>
      simp only
      rw [commandFindings_eq, namespaceBody?_eq]
      cases opened? dialect command with
      | none =>
        simp only [Option.map_none]
        rw [ownFindings_definitions, Option.toList_map]
      | some opened =>
        simp only [Option.map_some]
        rw [ih, List.map_map]
        rfl

/-! ## How deep namespaces are nested -/

/-- Whether no namespace that a script opens has an empty name, and at most `depth` of them are
around each other. -/
def nestsWithin (dialect : Dialect) : (depth : Nat) → (script : String) → Bool
  | depth, script =>
    (parseScript script).all fun parsed =>
      match parsed with
      | .error _ => true
      | .ok command =>
        (opened? dialect command).all fun (name, body) =>
          name != "" &&
            match depth with
            | 0 => false
            | depth + 1 => nestsWithin dialect depth body.value

/-- A namespace that a script opens has a name, and its body nests less deeply. -/
theorem opened_of_nestsWithin {depth : Nat} {script name : String} {body : Word}
    (nests : nestsWithin dialect depth script = true) (found : .ok command ∈ parseScript script)
    (opens : opened? dialect command = some (name, body)) :
    name ≠ "" ∧ ∃ shallower, depth = shallower + 1 ∧
      nestsWithin dialect shallower body.value = true := by
  rw [nestsWithin.eq_def] at nests
  have here := List.all_eq_true.mp nests _ found
  simp only [opens, Option.all_some, Bool.and_eq_true, bne_iff_ne] at here
  refine ⟨here.1, ?_⟩
  cases depth with
  | zero => cases here.2
  | succ shallower => exact ⟨shallower, rfl, here.2⟩

/-- More levels than a script nests find nothing more. -/
theorem writtenDefinitions_levels {depth levels others : Nat} {script : String}
    (nests : nestsWithin dialect depth script = true) (enough : depth < levels)
    (enoughToo : depth < others) (base : Nat) :
    writtenDefinitions dialect ends levels script base =
      writtenDefinitions dialect ends others script base := by
  induction levels generalizing depth others script base with
  | zero => exact absurd enough (Nat.not_lt_zero _)
  | succ levels ih =>
    cases others with
    | zero => exact absurd enoughToo (Nat.not_lt_zero _)
    | succ others =>
      rw [writtenDefinitions, writtenDefinitions, List.flatMap_def, List.flatMap_def]
      refine congrArg List.flatten (List.map_congr_left fun parsed found => ?_)
      cases parsed with
      | error error => rfl
      | ok command =>
        simp only
        cases opens : opened? dialect command with
        | none => rfl
        | some opened =>
          obtain ⟨-, shallower, rfl, within⟩ := opened_of_nestsWithin nests found opens
          exact congrArg (List.map _) (ih within (Nat.lt_of_succ_lt_succ enough)
            (Nat.lt_of_succ_lt_succ enoughToo) _)

/-- No namespace is around what a command defines by itself. -/
theorem namespaces_of_written? {line : Nat} {written : WrittenDefinition}
    (found : written? dialect command line = some written) : written.namespaces = [] := by
  unfold written? writtenProcedure? writtenMember? at found
  split at found
  · cases found
  · split at found
    · split at found <;> cases found
      rfl
    · split at found
      · split at found
        · cases found
        · split at found <;> cases found
          rfl
      · cases found

theorem writtenDefinitions_named {depth : Nat} {script : String}
    (nests : nestsWithin dialect depth script = true) (levels base : Nat) :
    ∀ written ∈ writtenDefinitions dialect ends levels script base,
      ∀ name ∈ written.namespaces, name ≠ "" := by
  induction levels generalizing depth script base with
  | zero =>
    intro written listed
    cases listed
  | succ levels ih =>
    intro written listed
    rw [writtenDefinitions] at listed
    obtain ⟨parsed, found, listed⟩ := List.mem_flatMap.mp listed
    cases parsed with
    | error error => cases listed
    | ok command =>
      simp only at listed
      cases opens : opened? dialect command with
      | none =>
        rw [opens] at listed
        rw [namespaces_of_written? (Option.mem_toList.mp listed)]
        exact nofun
      | some opened =>
        rw [opens] at listed
        obtain ⟨named, shallower, -, within⟩ := opened_of_nestsWithin nests found opens
        obtain ⟨inner, below, rfl⟩ := List.mem_map.mp listed
        exact List.forall_mem_cons.mpr ⟨named, ih within _ inner below⟩

end Scan

/-- The definitions that a scan of a script finds, as they are written. -/
def writtenIn (script : String) (dialect : Dialect) : List WrittenDefinition :=
  Scan.writtenDefinitions dialect (lineEnds 0 script.toList) (Scan.maxNesting + 1) script 0

/-- A script that is scanned by itself has its definitions in the global namespace. -/
theorem scan_definitions (script : String) (dialect : Dialect) :
    (scan script dialect).definitions =
      (writtenIn script dialect).map (WrittenDefinition.definitionIn Name.global) :=
  Scan.scriptFindings_definitions _ _ _ _

end CompiledScript
