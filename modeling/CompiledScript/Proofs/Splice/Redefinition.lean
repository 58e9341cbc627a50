import CompiledScript.Proofs.Splice.Registry
import CompiledScript.Proofs.Splice.Tables

/-!
# Calls that make a definition again

A call makes a definition of a script again if it says what was recorded of the
definition: a name that stands for the recorded one where the call is made, the
kind, the member name and the argument specification.  Such a call asks for the key
of the definition, and its body is its last argument whatever the kind.

An interceptor passes on a call whose definition has the first body of all with
this body in the last place, and a call whose key has no body as it is.
-/

set_option autoImplicit false

namespace CompiledScript

/-! ## Calls that make a definition -/

/-- The words behind the class and the kind in a call that defines a class member again. -/
inductive Definition.MemberWords (definition : Definition) (body : String) :
    MethodKind → List String → Prop
  | method : MemberWords definition body .method [definition.name, definition.arguments, body]
  | classMethod :
    MemberWords definition body .classMethod [definition.name, definition.arguments, body]
  | constructor (unnamed : definition.name = "") :
    MemberWords definition body .constructor [definition.arguments, body]
  | destructor (unnamed : definition.name = "") :
    MemberWords definition body .destructor [definition.arguments, body]
  | bareDestructor (unnamed : definition.name = "") (bare : definition.arguments = "") :
    MemberWords definition body .destructor [body]

/-- The call makes a definition of a script again: it calls the command for its sort, its name or
the name of its class stands for the recorded one where the call is made, kind, member name and
argument specification are the recorded ones, and some text is its body. -/
inductive Definition.MadeBy (dialect : Dialect) (definition : Definition) : InterceptedCall → Prop
  | procedure {name body scope : String} (sort : definition.kind = .procedure)
      (named : Name.qualify name scope = definition.name) :
    MadeBy dialect definition
      ⟨.procedures, scope, [name, definition.arguments, body].map .text⟩
  | member {className word body scope recorded : String} {kind : MethodKind} {words : List String}
      (sort : definition.kind = .member kind recorded)
      (announced : dialect.memberKind? word = some kind)
      (named : Name.qualify className scope = recorded)
      (worded : definition.MemberWords body kind words) :
    MadeBy dialect definition
      ⟨.members dialect, scope, (className :: word :: words).map .text⟩

/-- Which of the definition commands an interceptor stands in for. -/
def InterceptorForm.isMember : InterceptorForm → Bool
  | procedures => false
  | members _ => true

/-- What is asked for a call that makes a definition, and where its body stands. -/
structure Definition.AskedBy (definition : Definition) (call : InterceptedCall)
    (defining : DefiningCall) : Prop where
  recognised : call.defining? = some defining
  key : defining.key = definition.key
  arguments : defining.arguments = definition.arguments
  bodyLast : ∀ body, call.arguments.set defining.bodyAt body = call.arguments.dropLast ++ [body]

theorem Argument.texts?_text (words : List String) : texts? (words.map .text) = some words := by
  induction words with
  | nil => rfl
  | cons word words ih =>
    rw [texts?] at ih
    rw [texts?, List.map_cons, List.mapM_cons, ih]
    rfl

/-- The words of a call that defines a class member say what was recorded of it. -/
theorem Definition.MemberWords.parts {definition : Definition} {body : String} {kind : MethodKind}
    {words : List String} (worded : definition.MemberWords body kind words)
    (className word : String) :
    InterceptorForm.memberParts? kind (className :: word :: words) =
      some (className, definition.name, definition.arguments, words.length + 1) := by
  cases worded with
  | method | classMethod => rfl
  | constructor unnamed | destructor unnamed =>
    rw [unnamed]
    rfl
  | bareDestructor unnamed bare =>
    rw [unnamed, bare]
    rfl

theorem Definition.MemberWords.bodyLast {definition : Definition} {body : String}
    {kind : MethodKind} {words : List String} (worded : definition.MemberWords body kind words)
    (className word : String) (other : Argument) :
    ((className :: word :: words).map Argument.text).set (words.length + 1) other =
      ((className :: word :: words).map Argument.text).dropLast ++ [other] := by
  cases worded with
  | method | classMethod | constructor | destructor | bareDestructor => rfl

namespace Definition.MadeBy

variable {dialect : Dialect} {definition : Definition} {call : InterceptedCall}

/-- A call that makes a definition asks for it. -/
theorem asked (made : definition.MadeBy dialect call) :
    ∃ defining, definition.AskedBy call defining := by
  cases made with
  | @procedure name body scope sort named =>
    refine ⟨⟨.procedure (Name.qualify name scope), definition.arguments, 2⟩, rfl, ?_, rfl,
      fun _ => rfl⟩
    rw [key, sort, named]
  | @member className word body scope recorded kind words sort announced named worded =>
    refine ⟨⟨.member (Name.qualify className scope) kind definition.name, definition.arguments,
      words.length + 1⟩, ?_, ?_, rfl, worded.bodyLast className word⟩
    · have second : (className :: word :: words)[1]?.bind dialect.memberKind? = some kind :=
        announced
      simp only [InterceptedCall.defining?, InterceptorForm.recognise, Argument.texts?_text, second,
        worded.parts className word, Option.map_some]
    · rw [key, sort, named]

theorem form_eq (made : definition.MadeBy dialect call) :
    call.form.isMember = definition.kind.isMember := by
  cases made with
  | procedure sort named =>
    rw [sort]
    rfl
  | member sort announced named worded =>
    rw [sort]
    rfl

end Definition.MadeBy

/-! ## What interceptors pass on -/

namespace InterceptedCall

variable {call : InterceptedCall}

/-- A call that makes the definition whose body comes first is passed on with this body. -/
theorem passOn_first {definition : Definition} {defining : DefiningCall} {block : Block}
    {entry : DefinitionKey × PrecompiledBody} (asked : definition.AskedBy call defining)
    (served : definition.Served block entry) (entries : List (DefinitionKey × PrecompiledBody)) :
    call.form.passOn call.scope ⟨entry :: entries⟩ call.arguments =
      (call.arguments.dropLast ++ [.precompiled entry.2], ⟨entries⟩) := by
  have recognised : call.form.recognise call.scope call.arguments = some defining :=
    asked.recognised
  have taken := Registry.take_first entry entries
  rw [← served.key, ← asked.key, ← served.arguments, ← asked.arguments] at taken
  simp only [InterceptorForm.passOn, recognised, taken, Delivery.body?, asked.bodyLast]

/-- A call that defines something that has no body is passed on as it is, and so is a call that
defines nothing. -/
theorem passOn_other {registry : Registry DefinitionKey}
    (absent : ∀ defining, call.defining? = some defining →
      ∀ entry ∈ registry.entries, entry.1 ≠ defining.key) :
    call.form.passOn call.scope registry call.arguments = (call.arguments, registry) := by
  cases recognised : call.form.recognise call.scope call.arguments with
  | none => simp only [InterceptorForm.passOn, recognised]
  | some defining =>
    simp only [InterceptorForm.passOn, recognised,
      Registry.take_absent (absent defining recognised), Delivery.body?]

end InterceptedCall

end CompiledScript
