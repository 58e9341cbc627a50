import CompiledScript.Proofs.Definition.Placement
import CompiledScript.Proofs.Pairing
import CompiledScript.Proofs.Splice.Registry
import CompiledScript.Replay

/-!
# Calls of spliced commands

While the splices of a load are in force, its two registries change only through
the calls that reach its interceptors.  A run of such calls is therefore a run
over the registries alone, whatever else the host does in between.

A call that defines something is compiled, when it is compiled from source, for a
body source of its own.  A definition that was found in the script is compiled
for the same one, except for the text of the body, whenever both have one key and
one argument specification: the name, the namespace and the kind are all part of
the key.
-/

set_option autoImplicit false

namespace CompiledScript

/-! ## What a call is compiled for -/

/-- What the body is compiled for that stands in a call which defines something. -/
def DefiningCall.source (call : DefiningCall) (body : String) : BodySource :=
  match call.key with
  | .procedure name =>
    { name, scope := Name.namespaceOf name, arguments := call.arguments, body, kind := .procedure }
  | .member className kind name =>
    { name, scope := className, arguments := call.arguments, body, kind := .member kind className }

/-- The key under which the body of a definition is asked for. -/
def Definition.key (definition : Definition) : DefinitionKey :=
  match definition.kind with
  | .procedure => .procedure definition.name
  | .member kind className => .member className kind definition.name

/-- A definition is compiled for what a call with its key and arguments is, up to the body. -/
theorem DefiningCall.source_eq {call : DefiningCall} {definition : Definition}
    (placed : definition.Placed) (key : definition.key = call.key)
    (arguments : definition.arguments = call.arguments) :
    call.source definition.body = definition.source := by
  obtain ⟨name, scope, specification, body, kind, line⟩ := definition
  cases kind with
  | procedure =>
    have stands : scope = Name.namespaceOf name := placed
    simp only [Definition.key] at key
    simp only [DefiningCall.source, ← key, ← arguments, Definition.source, stands]
  | member kind className =>
    have stands : scope = className := placed
    simp only [Definition.key] at key
    simp only [DefiningCall.source, ← key, ← arguments, Definition.source, stands]

/-- The text of the body says nothing of where the body is compiled. -/
theorem DefiningCall.source_scope (call : DefiningCall) (body other : String) :
    (call.source body).scope = (call.source other).scope := by
  obtain ⟨key, arguments, bodyAt⟩ := call
  cases key with
  | procedure name => rfl
  | member className kind name => rfl

/-- A call is compiled with the argument specification that it has. -/
theorem DefiningCall.source_arguments (call : DefiningCall) (body : String) :
    (call.source body).arguments = call.arguments := by
  obtain ⟨key, arguments, bodyAt⟩ := call
  cases key with
  | procedure name => rfl
  | member className kind name => rfl

/-! ## Which calls are recognised -/

/-- Arguments that are texts are nothing else. -/
theorem Argument.eq_of_texts {arguments : List Argument} {words : List String}
    (texts : texts? arguments = some words) : arguments = words.map text := by
  induction arguments generalizing words with
  | nil =>
    cases texts
    rfl
  | cons argument arguments ih =>
    rw [texts?, List.mapM_cons] at texts
    obtain ⟨word, first, texts⟩ := Option.bind_eq_some_iff.mp texts
    obtain ⟨others, rest, whole⟩ := Option.bind_eq_some_iff.mp texts
    cases whole
    rw [ih rest]
    cases argument with
    | text value =>
      cases first
      rfl
    | precompiled body => cases first

namespace InterceptorForm

theorem bodyAt_lt {kind : MethodKind} {words : List String}
    {className name specification : String} {bodyAt : Nat}
    (parts : memberParts? kind words = some (className, name, specification, bodyAt)) :
    bodyAt < words.length := by
  unfold memberParts? at parts
  split at parts <;> cases parts <;> simp

variable {scope : String} {arguments : List Argument} {defining : DefiningCall}

/-- In a call that defines something a text stands in the place of the body. -/
theorem text_of_recognised {form : InterceptorForm}
    (recognised : form.recognise scope arguments = some defining) :
    ∃ text, arguments[defining.bodyAt]? = some (.text text) := by
  have known : ∃ words : List String, arguments = words.map .text ∧
      defining.bodyAt < words.length := by
    unfold recognise at recognised
    split at recognised
    · rename_i texts
      cases recognised
      exact ⟨_, Argument.eq_of_texts texts, by simp⟩
    · rename_i texts
      split at recognised
      · cases recognised
      · obtain ⟨_, parts, rfl⟩ := Option.map_eq_some_iff.mp recognised
        exact ⟨_, Argument.eq_of_texts texts, bodyAt_lt parts⟩
    · cases recognised
  obtain ⟨words, rfl, within⟩ := known
  exact ⟨words[defining.bodyAt], by simp [within]⟩

theorem key_of_procedures (recognised : procedures.recognise scope arguments = some defining) :
    ∃ name, defining.key = .procedure name := by
  unfold recognise at recognised
  split at recognised
  · cases recognised
    exact ⟨_, rfl⟩
  · rename_i impossible _
    cases impossible
  · cases recognised

theorem key_of_members {dialect : Dialect}
    (recognised : (members dialect).recognise scope arguments = some defining) :
    ∃ className kind name, defining.key = .member className kind name := by
  unfold recognise at recognised
  split at recognised
  · rename_i impossible _
    cases impossible
  · split at recognised
    · cases recognised
    · obtain ⟨_, -, rfl⟩ := Option.map_eq_some_iff.mp recognised
      exact ⟨_, _, _, rfl⟩
  · cases recognised

end InterceptorForm

/-! ## Runs of calls -/

/-- A call that reaches an interceptor of the given form. -/
structure InterceptedCall where
  form : InterceptorForm
  /-- The namespace that is current where the call is made. -/
  scope : String
  arguments : List Argument

namespace InterceptedCall

/-- What the call defines, if it is a definition. -/
def defining? (call : InterceptedCall) : Option DefiningCall :=
  call.form.recognise call.scope call.arguments

end InterceptedCall

/-- The bodies of a load that were not handed out. -/
structure Stock where
  procedures : Registry DefinitionKey
  members : Registry DefinitionKey

namespace Stock

/-- The bodies of a container. -/
def ofContainer (container : Container) : Stock :=
  ⟨container.procedureBodies, container.memberBodies⟩

/-- The registry that interceptors of a form ask. -/
def registry (stock : Stock) : InterceptorForm → Registry DefinitionKey
  | .procedures => stock.procedures
  | .members _ => stock.members

/-- Replaces the registry that interceptors of a form ask. -/
def setRegistry (stock : Stock) (registry : Registry DefinitionKey) : InterceptorForm → Stock
  | .procedures => { stock with procedures := registry }
  | .members _ => { stock with members := registry }

/-- The arguments that a call is passed on with, and the bodies left after it. -/
def serve (stock : Stock) (call : InterceptedCall) : List Argument × Stock :=
  let (passed, left) := call.form.passOn call.scope (stock.registry call.form) call.arguments
  (passed, stock.setRegistry left call.form)

/-- The body that a call is handed, under the key it asked for. -/
def handed? (stock : Stock) (call : InterceptedCall) : Option (DefinitionKey × PrecompiledBody) :=
  call.defining?.bind fun defining =>
    ((stock.registry call.form).take defining.key defining.arguments).1.body?.map
      (defining.key, ·)

/-- The bodies left after a run of calls. -/
def after (stock : Stock) : List InterceptedCall → Stock
  | [] => stock
  | call :: calls => (stock.serve call).2.after calls

/-- The bodies that a run of calls is handed, in order, each under the key it was asked for. -/
def handedAll (stock : Stock) : List InterceptedCall → List (DefinitionKey × PrecompiledBody)
  | [] => []
  | call :: calls => (stock.handed? call).toList ++ (stock.serve call).2.handedAll calls

/-- All bodies left for a key. -/
def bodies (stock : Stock) (key : DefinitionKey) : List PrecompiledBody :=
  match key with
  | .procedure _ => stock.procedures.bodies key
  | .member _ _ _ => stock.members.bodies key

/-- The bodies that two registries of a world hold. -/
def ofWorld {σ : Type} (world : World σ) (procedures members : Nat) : Stock :=
  ⟨world.registry procedures, world.registry members⟩

/-! ### Bodies are handed out in order -/

/-- A call that defines nothing takes nothing. -/
theorem serve_of_none {stock : Stock} {call : InterceptedCall} (unrecognised : call.defining? = none) :
    stock.serve call = (call.arguments, stock) := by
  have passed : call.form.passOn call.scope (stock.registry call.form) call.arguments =
      (call.arguments, stock.registry call.form) := by
    rw [InterceptorForm.passOn, show call.form.recognise call.scope call.arguments = none from
      unrecognised]
  rw [serve, passed]
  cases call.form with
  | procedures => rfl
  | members dialect => rfl

/-- What is left after a call that defines something is what is left after asking for its body. -/
theorem left_of_some {stock : Stock} {call : InterceptedCall} {defining : DefiningCall}
    (recognised : call.defining? = some defining) :
    (stock.serve call).2 = stock.setRegistry
      ((stock.registry call.form).take defining.key defining.arguments).2 call.form := by
  have asked : call.form.recognise call.scope call.arguments = some defining := recognised
  simp only [serve, InterceptorForm.passOn, asked]
  split
  · rfl
  · rfl

/-- A body in the place of the body's text is the one that the call is handed. -/
theorem handed_of_passed {stock : Stock} {call : InterceptedCall} {defining : DefiningCall}
    {body : PrecompiledBody} (recognised : call.defining? = some defining)
    (passed : (stock.serve call).1[defining.bodyAt]? = some (.precompiled body)) :
    stock.handed? call = some (defining.key, body) := by
  have asked : call.form.recognise call.scope call.arguments = some defining := recognised
  simp only [serve, InterceptorForm.passOn, asked] at passed
  rw [handed?, recognised, Option.bind_some]
  cases handed : ((stock.registry call.form).take defining.key defining.arguments).1.body? with
  | none =>
    simp only [handed] at passed
    obtain ⟨text, stands⟩ := InterceptorForm.text_of_recognised asked
    rw [stands] at passed
    cases passed
  | some other =>
    simp only [handed] at passed
    obtain ⟨within, -⟩ := List.getElem?_eq_some_iff.mp passed
    rw [List.length_set] at within
    rw [List.getElem?_set_self within] at passed
    cases passed
    rfl

/-- A body that a call is handed was compiled with the argument specification of the call. -/
theorem arguments_of_handed {stock : Stock} {call : InterceptedCall} {defining : DefiningCall}
    {key : DefinitionKey} {body : PrecompiledBody} (recognised : call.defining? = some defining)
    (handed : stock.handed? call = some (key, body)) : body.arguments = defining.arguments := by
  rw [handed?, recognised, Option.bind_some] at handed
  obtain ⟨_, taken, same⟩ := Option.map_eq_some_iff.mp handed
  cases same
  exact (Registry.take_body?_iff.mp taken).2

/-- What is handed out for one key, as far as another key is concerned. -/
theorem handed_for (asked key : DefinitionKey) (body : Option PrecompiledBody) :
    ((body.map (asked, ·)).toList.filter fun handed => handed.1 = key).map Prod.snd =
      if asked = key then body.toList else [] := by
  cases body with
  | none => simp
  | some body => by_cases same : asked = key <;> simp [same]

/-- What a call is handed for a key, put in front of what is left for it, is what was there. -/
theorem bodies_serve (stock : Stock) (call : InterceptedCall) (key : DefinitionKey) :
    ((stock.handed? call).toList.filter fun handed => handed.1 = key).map Prod.snd ++
        (stock.serve call).2.bodies key =
      stock.bodies key := by
  cases recognised : call.defining? with
  | none =>
    rw [serve_of_none recognised, handed?, recognised]
    rfl
  | some defining =>
    rw [left_of_some recognised, handed?, recognised, Option.bind_some, handed_for]
    have whole := Registry.bodies_take (stock.registry call.form) defining.key key
      defining.arguments
    obtain ⟨form, scope, arguments⟩ := call
    -- A registry of one sort holds nothing for the keys of the other sort.
    cases form with
    | procedures =>
      obtain ⟨name, asked⟩ := InterceptorForm.key_of_procedures recognised
      cases key with
      | procedure other => exact whole
      | member className kind other =>
        rw [asked, if_neg (by simp), List.nil_append]
        rfl
    | members dialect =>
      obtain ⟨className, kind, name, asked⟩ := InterceptorForm.key_of_members recognised
      cases key with
      | procedure other =>
        rw [asked, if_neg (by simp), List.nil_append]
        rfl
      | member _ _ _ => exact whole

/-- **For each key bodies are handed out in order**: what a run of calls is handed for a key, put
in front of what is left for it, is what was there. -/
theorem bodies_after (stock : Stock) (calls : List InterceptedCall) (key : DefinitionKey) :
    ((stock.handedAll calls).filter fun handed => handed.1 = key).map Prod.snd ++
        (stock.after calls).bodies key =
      stock.bodies key := by
  induction calls generalizing stock with
  | nil => rfl
  | cons call calls ih =>
    rw [handedAll, after, List.filter_append, List.map_append, List.append_assoc, ih,
      bodies_serve]

end Stock

/-! ## Interceptors serve from the stock of their load -/

/-- The number of the registry that interceptors of a form ask, out of those of a load. -/
def InterceptorForm.number (procedures members : Nat) : InterceptorForm → Nat
  | .procedures => procedures
  | .members _ => members

theorem World.registry_setRegistry_of_ne {σ : Type} (world : World σ) {number other : Nat}
    (different : other ≠ number) (registry : Registry DefinitionKey) :
    (world.setRegistry number registry).registry other = world.registry other := by
  simp [World.registry, setRegistry, List.getElem?_set_ne different.symm]

theorem World.registry_setRegistry_self {σ : Type} (world : World σ) {number : Nat}
    (within : number < world.registries.length) (registry : Registry DefinitionKey) :
    (world.setRegistry number registry).registry number = registry := by
  simp [World.registry, setRegistry, List.getElem?_set_self within]

/-- An interceptor passes a call on with what its registry serves for it. -/
theorem Interceptor.run_eq {σ : Type} (currentNamespace : σ → String)
    (invoke : String → List Argument → HostM σ String) (interceptor : Interceptor)
    (arguments : List Argument) (world : World σ) :
    interceptor.run currentNamespace invoke arguments world =
      let served := interceptor.form.passOn (currentNamespace world.host)
        (world.registry interceptor.registry) arguments
      invoke interceptor.target served.1 (world.setRegistry interceptor.registry served.2) :=
  rfl

/-- **A run of an interceptor serves its call**: the command it stands in for is called with the
arguments that the call is served, in a world that holds the bodies left. -/
theorem Interceptor.run_serves {σ : Type} (currentNamespace : σ → String)
    (invoke : String → List Argument → HostM σ String) {interceptor : Interceptor}
    {procedures members : Nat} (different : procedures ≠ members)
    (asks : interceptor.registry = interceptor.form.number procedures members)
    (arguments : List Argument) {world : World σ}
    (within : interceptor.registry < world.registries.length) :
    let served := (Stock.ofWorld world procedures members).serve
      ⟨interceptor.form, currentNamespace world.host, arguments⟩
    ∃ after, after.host = world.host ∧ Stock.ofWorld after procedures members = served.2 ∧
      interceptor.run currentNamespace invoke arguments world =
        invoke interceptor.target served.1 after := by
  obtain ⟨target, form, number⟩ := interceptor
  cases form with
  | procedures =>
    obtain rfl : procedures = number := asks.symm
    refine ⟨world.setRegistry procedures
      (InterceptorForm.procedures.passOn (currentNamespace world.host)
        (world.registry procedures) arguments).2, rfl, ?_, rfl⟩
    rw [Stock.ofWorld, world.registry_setRegistry_self within,
      world.registry_setRegistry_of_ne different.symm]
    rfl
  | members dialect =>
    obtain rfl : members = number := asks.symm
    refine ⟨world.setRegistry members
      ((InterceptorForm.members dialect).passOn (currentNamespace world.host)
        (world.registry members) arguments).2, rfl, ?_, rfl⟩
    rw [Stock.ofWorld, world.registry_setRegistry_self within,
      world.registry_setRegistry_of_ne different]
    rfl

end CompiledScript
