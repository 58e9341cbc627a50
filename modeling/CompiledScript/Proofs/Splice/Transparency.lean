import CompiledScript.Proofs.Splice.Redefinition

/-!
# Interceptors are transparent apart from one argument

An interceptor calls the command it stands in for exactly once, as the last thing it does,
and so gives back whatever this command does.  It passes on the arguments it was called
with, and the only one it ever replaces is the text of a body, if the registry hands out a
body for the definition that the call makes.  A call that is no definition in all its
arguments, among them every call with a body compiled before, leaves the registry alone.

The calls that are definitions are listed here by their arguments, next to the function
that recognises them, so that the place of the body can be read off each form.
-/

set_option autoImplicit false

namespace CompiledScript

namespace InterceptorForm

/-! ## The forms of definitions -/

/-- The forms of the calls that an interceptor takes for definitions, with what they define. -/
inductive Defines (scope : String) :
    InterceptorForm → List Argument → DefiningCall → Prop
  | procedure (name specification body : String) :
    Defines scope procedures ([name, specification, body].map .text)
      ⟨.procedure (Name.qualify name scope), specification, 2⟩
  | method {dialect : Dialect} {word : String} (announced : dialect.memberKind? word = some .method)
      (className name specification body : String) :
    Defines scope (members dialect)
      ([className, word, name, specification, body].map .text)
      ⟨.member (Name.qualify className scope) .method name, specification, 4⟩
  | classMethod {dialect : Dialect} {word : String}
      (announced : dialect.memberKind? word = some .classMethod)
      (className name specification body : String) :
    Defines scope (members dialect)
      ([className, word, name, specification, body].map .text)
      ⟨.member (Name.qualify className scope) .classMethod name, specification, 4⟩
  | constructor {dialect : Dialect} {word : String}
      (announced : dialect.memberKind? word = some .constructor)
      (className specification body : String) :
    Defines scope (members dialect)
      ([className, word, specification, body].map .text)
      ⟨.member (Name.qualify className scope) .constructor "", specification, 3⟩
  | bareDestructor {dialect : Dialect} {word : String}
      (announced : dialect.memberKind? word = some .destructor) (className body : String) :
    Defines scope (members dialect) ([className, word, body].map .text)
      ⟨.member (Name.qualify className scope) .destructor "", "", 2⟩
  | destructor {dialect : Dialect} {word : String}
      (announced : dialect.memberKind? word = some .destructor)
      (className specification body : String) :
    Defines scope (members dialect)
      ([className, word, specification, body].map .text)
      ⟨.member (Name.qualify className scope) .destructor "", specification, 3⟩

variable {form : InterceptorForm} {scope : String} {arguments : List Argument}
  {defining : DefiningCall}

theorem recognise_member {dialect : Dialect} {className word : String} {words : List String}
    {kind : MethodKind} (announced : dialect.memberKind? word = some kind) :
    (members dialect).recognise scope ((className :: word :: words).map .text) =
      (memberParts? kind (className :: word :: words)).map
        fun (className, name, specification, bodyAt) =>
          ⟨.member (Name.qualify className scope) kind name, specification, bodyAt⟩ := by
  have second : (className :: word :: words)[1]?.bind dialect.memberKind? = some kind := announced
  simp only [recognise, Argument.texts?_text, second]

/-- A call is recognised if it has one of these forms. -/
theorem recognise_iff :
    form.recognise scope arguments = some defining ↔ form.Defines scope arguments defining := by
  constructor
  · intro recognised
    unfold recognise at recognised
    split at recognised
    · rename_i texts
      cases recognised
      rw [Argument.eq_of_texts texts]
      exact .procedure _ _ _
    · rename_i dialect words texts
      split at recognised
      · cases recognised
      · rename_i kind second
        obtain ⟨_, parts, rfl⟩ := Option.map_eq_some_iff.mp recognised
        obtain ⟨word, there, announced⟩ := Option.bind_eq_some_iff.mp second
        rw [Argument.eq_of_texts texts]
        unfold memberParts? at parts
        split at parts
        all_goals
          cases parts
        all_goals
          cases there
        · exact .method announced _ _ _ _
        · exact .classMethod announced _ _ _ _
        · exact .constructor announced _ _ _
        · exact .bareDestructor announced _ _
        · exact .destructor announced _ _ _
    · cases recognised
  · intro defines
    cases defines with
    | procedure => rfl
    | method announced | classMethod announced | constructor announced
    | bareDestructor announced | destructor announced => exact recognise_member announced

/-- In a definition the place of the body is one of the arguments, and holds a text. -/
theorem Defines.body (defines : form.Defines scope arguments defining) :
    ∃ front text back, arguments = front ++ .text text :: back ∧
      front.length = defining.bodyAt := by
  obtain ⟨text, stands⟩ := text_of_recognised (recognise_iff.mpr defines)
  obtain ⟨within, there⟩ := List.getElem?_eq_some_iff.mp stands
  refine ⟨arguments.take defining.bodyAt, text, arguments.drop (defining.bodyAt + 1), ?_, ?_⟩
  · rw [← there, ← List.drop_eq_getElem_cons within, List.take_append_drop]
  · exact List.length_take_of_le (Nat.le_of_lt within)

/-- A definition has no body compiled before among its arguments. -/
theorem Defines.text (defines : form.Defines scope arguments defining) (body : PrecompiledBody) :
    .precompiled body ∉ arguments := by
  intro found
  cases defines <;> simp at found

end InterceptorForm

/-! ## What is passed on -/

variable {σ : Type}

/-- Putting a registry where it already is changes nothing. -/
theorem World.setRegistry_registry (world : World σ) (number : Nat) :
    world.setRegistry number (world.registry number) = world := by
  by_cases within : number < world.registries.length
  · rw [setRegistry, registry, List.getElem?_eq_getElem within, Option.getD_some,
      List.set_getElem_self]
  · rw [setRegistry, List.set_eq_of_length_le (Nat.le_of_not_lt within)]

namespace Interceptor

/-- What an interceptor passes on of the arguments of a call that is made in a namespace, and what
it leaves of the world. -/
inductive Passes (interceptor : Interceptor) (scope : String) (arguments : List Argument)
    (world : World σ) : List Argument → World σ → Prop
  /-- The call defines nothing. -/
  | unrecognised (other : ∀ defining, ¬ interceptor.form.Defines scope arguments defining) :
    Passes interceptor scope arguments world arguments world
  /-- The registry hands out no body for what the call defines. -/
  | kept {defining : DefiningCall} (defines : interceptor.form.Defines scope arguments defining)
      (refused : ((world.registry interceptor.registry).take defining.key
        defining.arguments).1.body? = none) :
    Passes interceptor scope arguments world arguments world
  /-- The registry hands out a body, which replaces the text of the body. -/
  | replaced {defining : DefiningCall} {body : PrecompiledBody} {front back : List Argument}
      {text : String} (defines : interceptor.form.Defines scope arguments defining)
      (handed : (world.registry interceptor.registry).take defining.key defining.arguments =
        (.substituted body, (world.registry interceptor.registry).eraseOldest defining.key))
      (whole : arguments = front ++ .text text :: back) (place : front.length = defining.bodyAt) :
    Passes interceptor scope arguments world (front ++ .precompiled body :: back)
      (world.setRegistry interceptor.registry
        ((world.registry interceptor.registry).eraseOldest defining.key))

theorem passes (interceptor : Interceptor) (scope : String) (arguments : List Argument)
    (world : World σ) :
    let served := interceptor.form.passOn scope (world.registry interceptor.registry) arguments
    interceptor.Passes scope arguments world served.1
      (world.setRegistry interceptor.registry served.2) := by
  intro served
  cases recognised : interceptor.form.recognise scope arguments with
  | none =>
    have passed : served = (arguments, world.registry interceptor.registry) := by
      simp only [served, InterceptorForm.passOn, recognised]
    rw [passed, World.setRegistry_registry]
    refine .unrecognised fun defining defines => ?_
    rw [InterceptorForm.recognise_iff.mpr defines] at recognised
    cases recognised
  | some defining =>
    have defines := InterceptorForm.recognise_iff.mp recognised
    cases handed : ((world.registry interceptor.registry).take defining.key
        defining.arguments).1.body? with
    | none =>
      have passed : served = (arguments, world.registry interceptor.registry) := by
        simp only [served, InterceptorForm.passOn, recognised, handed, Registry.take_of_none handed]
      rw [passed, World.setRegistry_registry]
      exact .kept defines handed
    | some body =>
      obtain ⟨front, text, back, whole, place⟩ := defines.body
      have left := Registry.take_of_some handed
      have passed : served = (front ++ .precompiled body :: back,
          (world.registry interceptor.registry).eraseOldest defining.key) := by
        simp only [served, InterceptorForm.passOn, recognised, handed, left]
        rw [whole, ← place, List.set_append_right _ _ (Nat.le_refl _), Nat.sub_self,
          List.set_cons_zero]
      rw [passed]
      refine .replaced defines ?_ whole place
      rw [← left]
      cases delivery : (world.registry interceptor.registry).take defining.key
          defining.arguments with
      | mk answer rest =>
        rw [delivery] at handed
        cases answer with
        | substituted other =>
          cases handed
          rfl
        | argumentsDiffer | notFound => cases handed

/-- A call with a body compiled before among its arguments is passed on as it is, and takes nothing
out of the registry. -/
theorem Passes.of_precompiled {interceptor : Interceptor} {scope : String}
    {arguments passed : List Argument} {world after : World σ} {body : PrecompiledBody}
    (passes : interceptor.Passes scope arguments world passed after)
    (found : .precompiled body ∈ arguments) : passed = arguments ∧ after = world := by
  cases passes with
  | unrecognised | kept => exact ⟨rfl, rfl⟩
  | replaced defines => exact (defines.text body found).elim

/-- **An interceptor is transparent apart from one argument.**  Whatever calling a command does, a
run of an interceptor is one call of the command it stands in for: with the arguments it got, in
the world it found, or, if the call is a definition that the registry hands out a body for, with
this body in the place of the text of the body, in a world where the body has left the registry.
The place of the body is among the arguments of every definition and holds a text, and a call with a
body compiled before among its arguments is passed on as it is. -/
theorem run_transparent (currentNamespace : σ → String) (interceptor : Interceptor)
    (arguments : List Argument) (world : World σ) :
    (∃ passed after,
        interceptor.Passes (currentNamespace world.host) arguments world passed after ∧
        ∀ invoke, interceptor.run currentNamespace invoke arguments world =
          invoke interceptor.target passed after) ∧
      (∀ scope defining, interceptor.form.Defines scope arguments defining →
        ∃ front text back, arguments = front ++ .text text :: back ∧
          front.length = defining.bodyAt) ∧
      ∀ body, .precompiled body ∈ arguments →
        ∀ invoke, interceptor.run currentNamespace invoke arguments world =
          invoke interceptor.target arguments world := by
  have passed := interceptor.passes (currentNamespace world.host) arguments world
  refine ⟨⟨_, _, passed, fun invoke => run_eq currentNamespace invoke _ _ _⟩,
    fun _ _ defines => defines.body, ?_⟩
  intro body found invoke
  obtain ⟨same, untouched⟩ := passed.of_precompiled found
  rw [run_eq]
  dsimp only
  rw [same, untouched]

/-- The body of a destructor without an argument specification is the third argument. -/
example (invoke : String → List Argument → HostM Unit String) (block : Block) :
    let body : PrecompiledBody := ⟨"::Stack", "", block⟩
    let interceptor : Interceptor := ⟨reservedName "class", .members {}, 0⟩
    interceptor.run (fun _ => "::") invoke (["Stack", "destructor", "text"].map .text)
        ⟨(), [.ofList [(.member "::Stack" .destructor "", body)]]⟩ =
      invoke interceptor.target [.text "Stack", .text "destructor", .precompiled body]
        ⟨(), [.empty]⟩ := by
  rfl

end Interceptor

end CompiledScript
