import CompiledScript.Proofs.Splice.InForce
import CompiledScript.Proofs.Splice.Redefinition

/-!
# Scanned definitions and recognised calls

A definition is told from other commands twice.  The scan looks at a command of the
script with all its words, the name of the command among them; an interceptor looks at
the arguments that a call arrives with, when the name is gone and substitution is done.
Both have their own table of the forms that a definition can take, and what is compiled
for the one is only of use if the other recognises it.

For a command without substitutions the two agree.  The tables list the same forms, one
word further to the left in a call, and the namespace, which both qualify names with, is
the same where the script is scanned and where it is run.  So a command is recorded
exactly if its call is recognised, and then the call asks for the key and the argument
specification that were recorded, and its body is the one that was.
-/

set_option autoImplicit false

namespace CompiledScript

/-- What is recognised of a call is what was recorded of the definition: the call asks for it under
its key and with its argument specification, and the place in which a body would be put holds the
text of its body. -/
structure Definition.RecognisedAs (definition : Definition) (arguments : List Argument)
    (call : DefiningCall) : Prop where
  key : call.key = definition.key
  specification : call.arguments = definition.arguments
  body : arguments[call.bodyAt]? = some (.text definition.body)

/-! ## Commands without substitutions -/

namespace Scan

variable {command : Command}

theorem literal?_of_literal {word : Word} (literal : word.literal = true) :
    word.literal? = some word.value :=
  if_pos literal

theorem literalWords?_of_literal (literal : ∀ word ∈ command.words, word.literal = true) :
    literalWords? command = some (command.words.map Word.value) := by
  unfold literalWords?
  generalize command.words = words at literal
  induction words with
  | nil => rfl
  | cons word words ih =>
    rw [List.forall_mem_cons] at literal
    rw [List.mapM_cons, literal?_of_literal literal.1, ih literal.2]
    rfl

theorem literalWord?_of_literal (literal : ∀ word ∈ command.words, word.literal = true)
    (index : Nat) :
    literalWord? command index = (command.words[index]?).map Word.value := by
  unfold literalWord?
  cases found : command.words[index]? with
  | none => rfl
  | some word => exact literal?_of_literal (literal word (List.mem_of_getElem? found))

/-! ## The forms of definitions -/

/-- The scan and the interceptors list the same forms of member definitions.  Where an interceptor
has the place of the body in a call, the scan has what stands there. -/
theorem memberParts?_cons (kind : MethodKind) (name : String) (words : List String) :
    memberParts? kind (name :: words) =
      (InterceptorForm.memberParts? kind words).bind fun (className, member, arguments, bodyAt) =>
        words[bodyAt]?.map fun body => (className, member, arguments, body) := by
  rcases words with _ | ⟨first, _ | ⟨second, _ | ⟨third, _ | ⟨fourth, _ | ⟨fifth, _ | _⟩⟩⟩⟩⟩ <;>
    cases kind <;> rfl

/-- What a command amounts to agrees with what is recognised of its call: there is no definition in
the one and nothing in the other, or there is one definition and it is recognised as such. -/
inductive Agrees (arguments : List Argument) : List Finding → Option DefiningCall → Prop
  | unnoticed {findings : List Finding} (none : findings.filterMap Finding.definition? = []) :
    Agrees arguments findings Option.none
  | noticed {findings : List Finding} {definition : Definition} {call : DefiningCall}
      (single : findings.filterMap Finding.definition? = [definition])
      (recognised : definition.RecognisedAs arguments call) :
    Agrees arguments findings (some call)

theorem agrees_procedure {name : String} {words : List String}
    (whole : literalWords? command = some (name :: words)) (scope : String) (line : Nat) :
    Agrees (words.map .text) (procedureFindings command scope line)
      (InterceptorForm.procedures.recognise scope (words.map .text)) := by
  unfold procedureFindings InterceptorForm.recognise
  rw [whole, Argument.texts?_text]
  rcases words with _ | ⟨defined, _ | ⟨specification, _ | ⟨body, _ | ⟨further, words⟩⟩⟩⟩
  case cons.cons.cons.nil => exact .noticed rfl ⟨rfl, rfl, rfl⟩
  all_goals exact .unnoticed rfl

theorem agrees_member {dialect : Dialect} {name : String} {words : List String}
    (whole : literalWords? command = some (name :: words))
    (second : literalWord? command 2 = words[1]?) (scope : String) (line : Nat) :
    Agrees (words.map .text) (memberFindings dialect command scope line)
      ((InterceptorForm.members dialect).recognise scope (words.map .text)) := by
  simp only [memberFindings, InterceptorForm.recognise, Argument.texts?_text, whole, second,
    Option.bind_some]
  cases words[1]?.bind dialect.memberKind? with
  | none => exact .unnoticed rfl
  | some kind =>
    simp only [memberParts?_cons]
    cases parts : InterceptorForm.memberParts? kind words with
    | none => exact .unnoticed rfl
    | some found =>
      obtain ⟨className, member, specification, bodyAt⟩ := found
      have within : bodyAt < words.length := InterceptorForm.bodyAt_lt parts
      have body : words[bodyAt]? = some words[bodyAt] := List.getElem?_eq_getElem within
      simp only [Option.bind_some, body, Option.map_some]
      refine .noticed rfl ⟨rfl, rfl, ?_⟩
      rw [List.getElem?_map, body]
      rfl

end Scan

/-! ## Agreement -/

theorem Name.same_comm (first second : String) : same first second = same second first := by
  rw [Bool.eq_iff_iff]
  simp only [same, beq_iff_eq]
  exact eq_comm

theorem Name.same_trans {first second third : String} (one : same first second = true)
    (other : same second third = true) : same first third = true := by
  simp only [same, beq_iff_eq] at one other ⊢
  exact one.trans other

/-- A command without substitutions whose first word names one of the definition commands amounts to
what is recognised of its call. -/
theorem Scan.agrees_command {dialect : Dialect}
    (different : Name.same dialect.procedure dialect.member = false) {command : Command}
    {first : Word} {others : List Word} (words : command.words = first :: others)
    (literal : ∀ word ∈ command.words, word.literal = true) {isMember : Bool}
    (named : Name.same first.value (dialect.command isMember) = true) (ends : List Nat)
    (scanBody : String → Nat → String → List Finding) (base : Nat) (scope : String) :
    Agrees (others.map fun word => .text word.value)
      (commandFindings dialect ends scanBody base scope command)
      ((dialect.form isMember).recognise scope (others.map fun word => .text word.value)) := by
  have whole : literalWords? command = some (first.value :: others.map Word.value) := by
    rw [literalWords?_of_literal literal, words]
    rfl
  have start : literalWord? command 0 = some first.value := by
    rw [literalWord?_of_literal literal, words]
    rfl
  have second : literalWord? command 2 = (others.map Word.value)[1]? := by
    rw [literalWord?_of_literal literal, words, List.getElem?_map]
    rfl
  have texts : (others.map fun word => Argument.text word.value) =
      (others.map Word.value).map .text := (List.map_map ..).symm
  rw [texts, commandFindings, start]
  cases isMember with
  | false =>
    have procedure : dialect.isProcedure first.value = true := named
    simp only [procedure, if_true]
    exact agrees_procedure whole scope _
  | true =>
    have member : dialect.isMember first.value = true := named
    have notProcedure : dialect.isProcedure first.value = false := by
      rw [Bool.eq_false_iff]
      intro procedure
      have same : Name.same dialect.procedure dialect.member = true :=
        Name.same_trans (Name.same_comm .. ▸ procedure) named
      rw [different] at same
      cases same
    simp only [notProcedure, member, if_true, Bool.false_eq_true, if_false]
    exact agrees_member whole second scope _

/-- **A definition is recorded exactly if its call is recognised.**  For a command without
substitutions whose first word names one of two different definition commands, the scan records a
definition where the interceptor of the command recognises the call; the call asks for the recorded key and argument
specification, and what the interceptor passes on has a precompiled body, if there is one, in the
place of the recorded body.  A call that is not recognised is passed on as it is. -/
theorem recorded_iff_recognised {dialect : Dialect}
    (different : Name.same dialect.procedure dialect.member = false) {command : Command}
    {first : Word} {others : List Word} (words : command.words = first :: others)
    (literal : ∀ word ∈ command.words, word.literal = true) {isMember : Bool}
    (named : Name.same first.value (dialect.command isMember) = true) (ends : List Nat)
    (scanBody : String → Nat → String → List Finding) (base : Nat) (scope : String) :
    let findings := Scan.commandFindings dialect ends scanBody base scope command
    let form := dialect.form isMember
    let arguments := others.map fun word => Argument.text word.value
    ((∃ definition, .definition definition ∈ findings) ↔
        ∃ call, form.recognise scope arguments = some call) ∧
      (∀ definition call, .definition definition ∈ findings →
        form.recognise scope arguments = some call →
          definition.RecognisedAs arguments call ∧
            ∀ registry, form.passOn scope registry arguments =
              let (delivery, left) := registry.take definition.key definition.arguments
              (delivery.body?.elim arguments fun body =>
                arguments.set call.bodyAt (.precompiled body), left)) ∧
      (form.recognise scope arguments = none →
        ∀ registry, form.passOn scope registry arguments = (arguments, registry)) := by
  intro findings form arguments
  have agrees : Scan.Agrees arguments findings (form.recognise scope arguments) :=
    Scan.agrees_command different words literal named ends scanBody base scope
  have recorded : ∀ definition, .definition definition ∈ findings ↔
      definition ∈ findings.filterMap Finding.definition? := by
    intro definition
    rw [List.mem_filterMap]
    constructor
    · intro found
      exact ⟨_, found, rfl⟩
    · rintro ⟨finding, found, same⟩
      cases finding with
      | definition other =>
        cases same
        exact found
      | classNamed name => cases same
  simp only [recorded]
  generalize asked : form.recognise scope arguments = call? at agrees ⊢
  cases agrees with
  | unnoticed none =>
    refine ⟨?_, ?_, ?_⟩
    · rw [none]
      simp
    · intro definition call found
      rw [none] at found
      cases found
    · intro _ registry
      simp only [InterceptorForm.passOn, asked]
  | @noticed definition call single recognised =>
    refine ⟨?_, ?_, ?_⟩
    · rw [single]
      simp
    · intro other another found same
      rw [single, List.mem_singleton] at found
      cases found
      cases same
      refine ⟨recognised, ?_⟩
      intro registry
      simp only [InterceptorForm.passOn, asked, recognised.key, recognised.specification]
      cases (registry.take definition.key definition.arguments).1.body? with
      | none => rfl
      | some body => rfl
    · intro missing
      cases missing

/-- A destructor without an argument specification. -/
def bareDestructor : Command where
  words :=
    [⟨"::oo::define", true, .bare, 0⟩, ⟨"c", true, .bare, 13⟩, ⟨"destructor", true, .bare, 15⟩,
      ⟨"emit gone", true, .braced, 26⟩]
  offset := 0

/-- The body of the destructor stands in the third place of the call, and a body that was compiled
for it gets there. -/
theorem recorded_iff_recognised_destructor :
    let arguments : List Argument := [.text "c", .text "destructor", .text "emit gone"]
    let body : PrecompiledBody := ⟨"::a::c", "", Block.empty⟩
    (∃ definition, .definition definition ∈
        Scan.commandFindings {} [] (fun _ _ _ => []) 0 "::a" bareDestructor ∧
      definition.RecognisedAs arguments ⟨.member "::a::c" .destructor "", "", 2⟩) ∧
      (InterceptorForm.members {}).passOn "::a"
          ⟨[(.member "::a::c" .destructor "", body)]⟩ arguments =
        ([.text "c", .text "destructor", .precompiled body], ⟨[]⟩) := by
  intro arguments body
  obtain ⟨recorded, agreed, -⟩ := @recorded_iff_recognised {} (by decide) bareDestructor _ _ rfl
    (by decide) true (by decide) [] (fun _ _ _ => []) 0 "::a"
  have recognised : (Dialect.form {} true).recognise "::a" arguments =
      some ⟨.member "::a::c" .destructor "", "", 2⟩ := by decide
  obtain ⟨definition, found⟩ := recorded.mpr ⟨_, recognised⟩
  obtain ⟨same, passed⟩ := agreed definition _ found recognised
  refine ⟨⟨definition, found, same⟩, ?_⟩
  refine (passed _).trans ?_
  rw [← same.key, ← same.specification]
  rfl

end CompiledScript
