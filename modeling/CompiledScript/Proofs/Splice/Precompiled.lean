import CompiledScript.Interpreter.Host
import CompiledScript.Proofs.Splice.Tables

/-!
# Which body a call is handed

The bodies of a saved script stand in its container in the order of its
definitions, and a registry hands out the bodies of a key in this order.  So the
body that a call is handed was compiled for the definition whose turn it is: if
`n` calls with the same key have been handed a body before, it is the definition
with this key that the scan has found after `n` others.

A call is matched by its key and its argument specification, and its body text is
not looked at.  A definition that is put together by substitution may therefore
be handed the body of a later literal definition of the same name, and the main
theorem says exactly when this makes a difference: a call is handed what is
compiled for its own source if and only if the definition whose turn it is
compiles to the same.
-/

set_option autoImplicit false

namespace CompiledScript

variable {σ : Type}

/-! ## What is loaded of a saved script -/

/-- A host whose compiler of bodies is a function of their sources, and whose compilers make no
map with two equal keys. -/
structure Host.CompilesBy (host : Host σ) (compile : BodySource → Block) : Prop where
  body : ∀ source before block after,
    host.compileBody source before = .ok block after → block = compile source
  wellFormed : ∀ source, (compile source).WellFormed
  script : ∀ source before block after,
    host.compileScript source before = .ok block after → block.WellFormed

variable {host : Host σ} {compile : BodySource → Block}

theorem Host.CompilesBy.compilesWell (compiles : host.CompilesBy compile) : host.CompilesWell where
  script := compiles.script
  body source before block after compiled := by
    rw [compiles.body source before block after compiled]
    exact compiles.wellFormed source

/-- What is decoded of a save corresponds to the container that was saved, whatever the bounds
and the version it is decoded with. -/
theorem decode_saved (compiles : host.CompilesBy compile) {options : Options} {source : String}
    {world : World σ} (done : (save host options none source world).failure = none)
    {limits : Limits} {running : RuntimeVersion} {container : Container}
    (decoded : (Container.decode limits running).outcome
      (save host options none source world).bytes = .ok container) :
    ∃ saved : Container, saved.SavedFrom host options.dialect source world ∧
      saved.Same container := by
  cases output : save host options none source world with
  | mk after bytes failure =>
    rw [output] at done decoded
    cases done
    obtain ⟨saved, made, same⟩ := save_decoded compiles.compilesWell output decoded
    exact ⟨saved, Container.savedFrom_ofScript made, same⟩

/-! ## The bodies of a key are those of its definitions -/

theorem procedures_served (compiles : host.CompilesBy compile) {dialect : Dialect}
    {source : String} {world : World σ} {saved container : Container}
    (savedFrom : saved.SavedFrom host dialect source world) (same : saved.Same container) :
    List.Forall₂ (fun definition => definition.Served (compile definition.source))
      (scan source dialect).procedures container.procedureBodies.entries := by
  refine List.forall₂_map_right_iff.mpr ?_
  refine Pairing.comp (Pairing.imp_of_mem savedFrom.procedures
    (fun definition found entry _ belongs => And.intro found belongs)) same.procedures ?_
  rintro definition entry loaded ⟨found, belongs⟩ same
  obtain ⟨_, _, compiled⟩ := belongs.body
  rw [← compiles.body _ _ _ _ compiled]
  exact definition.served_procedure found belongs same

theorem members_served (compiles : host.CompilesBy compile) {dialect : Dialect}
    {source : String} {world : World σ} {saved container : Container}
    (savedFrom : saved.SavedFrom host dialect source world) (same : saved.Same container) :
    List.Forall₂ (fun definition => definition.Served (compile definition.source))
      (scan source dialect).members container.memberBodies.entries := by
  rw [← ScanResult.map_membersWithClass]
  refine List.forall₂_map_left_iff.mpr (List.forall₂_map_right_iff.mpr ?_)
  refine Pairing.comp (Pairing.imp_of_mem savedFrom.methods
    (fun member found entry _ belongs => And.intro found belongs)) same.methods ?_
  rintro member entry loaded ⟨found, belongs⟩ same
  obtain ⟨_, _, compiled⟩ := belongs.body
  rw [← compiles.body _ _ _ _ compiled]
  exact Definition.served_method found belongs same

/-- Leaving out definitions of another sort leaves those of a key as they are. -/
theorem Definition.filter_of_key {keeps : Definition → Bool} {key : DefinitionKey}
    (kept : ∀ definition : Definition, definition.key = key → keeps definition = true)
    (definitions : List Definition) :
    ((definitions.filter keeps).filter fun definition => definition.key = key) =
      definitions.filter fun definition => definition.key = key := by
  rw [List.filter_filter]
  refine List.filter_congr fun definition _ => ?_
  by_cases same : definition.key = key
  · simp [same, kept definition same]
  · simp [same]

theorem Definition.isMember_of_key {definition : Definition} :
    definition.kind.isMember = true ↔
      ∃ className kind name, definition.key = .member className kind name := by
  obtain ⟨name, scope, arguments, body, kind, line⟩ := definition
  cases kind with
  | procedure => simp [DefinitionKind.isMember, key]
  | member kind className => simp [DefinitionKind.isMember, key]

theorem Registry.bodies_served {definitions : List Definition} {registry : Registry DefinitionKey}
    (served : List.Forall₂ (fun definition => definition.Served (compile definition.source))
      definitions registry.entries)
    (key : DefinitionKey) :
    List.Forall₂ (fun definition body => definition.Served (compile definition.source) (key, body))
      (definitions.filter fun definition => definition.key = key) (registry.bodies key) := by
  refine List.forall₂_map_right_iff.mpr ?_
  have agree : Relator.LiftFun
      (fun definition : Definition => definition.Served (compile definition.source)) (· ↔ ·)
      (fun definition => decide (definition.key = key) = true)
      (fun entry => (entry.1 == key) = true) := by
    intro definition entry served
    simp [served.key]
  have kept := List.rel_filter agree served
  refine Pairing.imp_of_mem kept fun definition found entry listed served => ?_
  have same := of_decide_eq_true (List.mem_filter.mp found).2
  rw [← same, served.key]
  exact served

/-- **The bodies of a key are those of the definitions with this key**, in the order of the scan. -/
theorem Stock.bodies_served (compiles : host.CompilesBy compile) {dialect : Dialect}
    {source : String} {world : World σ} {saved container : Container}
    (savedFrom : saved.SavedFrom host dialect source world) (same : saved.Same container)
    (key : DefinitionKey) :
    List.Forall₂ (fun definition body => definition.Served (compile definition.source) (key, body))
      ((scan source dialect).definitions.filter fun definition => definition.key = key)
      ((Stock.ofContainer container).bodies key) := by
  cases key with
  | procedure name =>
    have kept : ∀ definition : Definition, definition.key = .procedure name →
        (!definition.kind.isMember) = true := by
      intro definition found
      rw [Bool.not_eq_true', ← Bool.not_eq_true, Definition.isMember_of_key, found]
      simp
    rw [← Definition.filter_of_key kept]
    exact Registry.bodies_served (procedures_served compiles savedFrom same) _
  | member className kind name =>
    have kept : ∀ definition : Definition, definition.key = .member className kind name →
        definition.kind.isMember = true :=
      fun definition found => Definition.isMember_of_key.mpr ⟨_, _, _, found⟩
    rw [← Definition.filter_of_key kept]
    exact Registry.bodies_served (members_served compiles savedFrom same) _

/-! ## Whose body a call is handed -/

/-- Blocks that correspond are equal to the same blocks. -/
theorem Block.Alike.equal_congr {left middle right : Block}
    (alike : left.Alike Literal.Same middle) (well : right.WellFormed) :
    (left == right) = true ↔ (middle == right) = true := by
  rw [Block.equal_iff_same alike.same_symm.wellFormed well,
    Block.equal_iff_same alike.wellFormed well]
  have trans := Literal.equalityOn_wellFormed.similar_trans
  exact ⟨alike.same_symm.trans trans, alike.trans trans⟩

/-- A body that is handed out stands in front of what is left for its key, behind what was handed
out before. -/
theorem Stock.bodies_getElem?_of_handed {stock : Stock} {earlier : List InterceptedCall}
    {call : InterceptedCall} {key : DefinitionKey} {body : PrecompiledBody}
    (handed : (stock.after earlier).handed? call = some (key, body)) :
    (stock.bodies key)[(stock.handedAll earlier).countP fun handed => handed.1 = key]? =
      some body := by
  have whole := stock.bodies_after earlier key
  rw [← (stock.after earlier).bodies_serve call key, handed] at whole
  simp only [Option.toList_some, List.filter_cons, decide_true, if_true, List.filter_nil,
    List.map_cons, List.map_nil] at whole
  rw [← whole, List.countP_eq_length_filter, List.getElem?_append_right (by simp)]
  simp

/-- **A call is handed the body of the definition whose turn it is.**  This body is compiled for
the very place, name and argument specification of the call, but for the body text of the
definition, and it is what the call's own body text would compile to exactly if that text and the
text of the definition compile to the same. -/
theorem Stock.handed_own_iff (compiles : host.CompilesBy compile) {options : Options}
    {source : String} {world : World σ}
    (done : (save host options none source world).failure = none)
    {limits : Limits} {running : RuntimeVersion} {container : Container}
    (decoded : (Container.decode limits running).outcome
      (save host options none source world).bytes = .ok container)
    {earlier : List InterceptedCall} {call : InterceptedCall} {defining : DefiningCall}
    {body : PrecompiledBody} (recognised : call.defining? = some defining)
    (passed : (((ofContainer container).after earlier).serve call).1[defining.bodyAt]? =
      some (.precompiled body)) :
    ∃ definition text,
      ((scan source options.dialect).definitions.filter fun definition =>
          definition.key = defining.key)[((ofContainer container).handedAll earlier).countP
            fun handed => handed.1 = defining.key]? = some definition ∧
      call.arguments[defining.bodyAt]? = some (.text text) ∧
      body.scope = (defining.source text).scope ∧ body.arguments = (defining.source text).arguments ∧
      (body.block == compile (defining.source definition.body)) = true ∧
      ((body.block == compile (defining.source text)) = true ↔
        (compile (defining.source definition.body) == compile (defining.source text)) = true) := by
  obtain ⟨saved, savedFrom, same⟩ := decode_saved compiles done decoded
  have served := bodies_served compiles savedFrom same defining.key
  have handed := handed_of_passed recognised passed
  obtain ⟨definition, turn, served⟩ :=
    Pairing.origin_at served (bodies_getElem?_of_handed handed)
  obtain ⟨text, stands⟩ := InterceptorForm.text_of_recognised recognised
  have found := (List.mem_filter.mp (List.mem_of_getElem? turn)).1
  have matching := arguments_of_handed recognised handed
  have own : defining.source definition.body = definition.source :=
    DefiningCall.source_eq (scan_placed found) served.key (served.arguments.trans matching)
  have block := served.block
  rw [← own] at block
  refine ⟨definition, text, turn, stands, ?_, ?_, ?_, ?_⟩
  · rw [defining.source_scope text definition.body, own]
    exact served.scope.symm
  · rw [defining.source_arguments, matching]
  · exact (Block.equal_iff_same block.wellFormed (compiles.wellFormed _)).mpr block.same_symm
  · exact block.same_symm.equal_congr (compiles.wellFormed _)

/-! ## A definition that is put together by substitution -/

namespace Interpreter

/-- What the interpreter compiles a body to, if it is a script. -/
def bodyBlock (source : BodySource) : Block :=
  { Block.empty with
    code := Bytes.ofText source.body
    literals := [.text source.scope, .text source.arguments]
    compiledLocals := some (UInt32.ofNat (Blank.words source.arguments).length) }

theorem compilesBy : Interpreter.host.CompilesBy bodyBlock where
  body source before block after compiled := by
    change compileBody source before = _ at compiled
    rw [compileBody] at compiled
    cases fault : syntaxError? (parseScript source.body) with
    | some error =>
      rw [fault] at compiled
      cases compiled
    | none =>
      rw [fault] at compiled
      obtain ⟨_, _, -, done⟩ := Steps.of_bind compiled
      cases done
      rfl
  wellFormed source := by
    simp [bodyBlock, Block.WellFormed, Literal.WellFormed, Literal.DistinctKeys]
  script := compilesWell.script

/-- A script whose second definition has a body that is not literal. -/
def substitutedScript : String := "proc f {} {one}\nproc f {} $b\nproc f {} {two}"

/-- What the script is saved as. -/
def substitutedSave : SaveOutcome Interpreter :=
  save Interpreter.host {} none substitutedScript ⟨.ofVersion ⟨1, 0⟩, []⟩

/-- A call that defines the procedure of the script with the given body. -/
def substitutedCall (body : String) : InterceptedCall :=
  ⟨.procedures, "::", [.text "f", .text "", .text body]⟩

/-- What every such call defines. -/
def substitutedDefining : DefiningCall := ⟨.procedure "::f", "", 2⟩

theorem substituted_defining (body : String) :
    (substitutedCall body).defining? = some substitutedDefining := by
  have name : Name.qualify "f" "::" = "::f" := by decide +kernel
  show some (⟨.procedure (Name.qualify "f" "::"), "", 2⟩ : DefiningCall) = _
  rw [name]
  rfl

/-- An argument that is a body other than what the body text of a call compiles to. -/
def isForeign : Option Argument → Bool
  | some (.precompiled body) => !(body.block == bodyBlock (substitutedDefining.source "other"))
  | some (.text _) | none => false

/-- Whether one body is handed out by a first call, and a foreign one to the second. -/
def substitutedRun : Bool :=
  match (Container.decode {} ⟨1, 0⟩).outcome substitutedSave.bytes with
  | .error _ => false
  | .ok container =>
    let stock := Stock.ofContainer container
    let calls := [substitutedCall "one"]
    ((stock.handedAll calls).countP fun handed => handed.1 = .procedure "::f") == 1 &&
      isForeign ((stock.after calls).serve (substitutedCall "other")).1[2]?

/-- The second call is handed a body although its own was not compiled ahead of time. -/
theorem substituted_passed :
    ∃ container body, (Container.decode {} ⟨1, 0⟩).outcome substitutedSave.bytes = .ok container ∧
      (((Stock.ofContainer container).handedAll [substitutedCall "one"]).countP
        fun handed => handed.1 = .procedure "::f") = 1 ∧
      (((Stock.ofContainer container).after [substitutedCall "one"]).serve
        (substitutedCall "other")).1[2]? = some (.precompiled body) ∧
      (body.block == bodyBlock (substitutedDefining.source "other")) = false := by
  have run : substitutedRun = true := by decide +kernel
  rw [substitutedRun] at run
  split at run
  · cases run
  · rename_i container decoded
    obtain ⟨counted, foreign⟩ := Bool.and_eq_true_iff.mp run
    rw [isForeign.eq_def] at foreign
    split at foreign
    · rename_i body passed
      exact ⟨container, body, decoded, beq_iff_eq.mp counted, passed,
        (Bool.not_eq_true' _).mp foreign⟩
    · cases foreign
    · cases foreign

theorem substitutedSave_failure : substitutedSave.failure = none :=
  Option.isNone_iff_eq_none.mp (by decide +kernel)

/-- The last definition of the script is the one whose turn it is. -/
theorem substituted_turn :
    (((scan substitutedScript {}).definitions.filter fun definition =>
      definition.key = .procedure "::f")[1]?.map Definition.body) = some "two" := by
  decide +kernel

end Interpreter

open Interpreter

/-- The procedure is defined by the second call as the script's third command has it. -/
theorem Stock.handed_own_iff_substituted :
    ∃ container body, (Container.decode {} ⟨1, 0⟩).outcome substitutedSave.bytes = .ok container ∧
      (((ofContainer container).after [substitutedCall "one"]).serve
        (substitutedCall "other")).1[2]? = some (.precompiled body) ∧
      (body.block == bodyBlock (substitutedDefining.source "two")) = true ∧
      ((body.block == bodyBlock (substitutedDefining.source "other")) = true ↔
        (bodyBlock (substitutedDefining.source "two") ==
          bodyBlock (substitutedDefining.source "other")) = true) := by
  obtain ⟨container, body, decoded, counted, passed, -⟩ := substituted_passed
  obtain ⟨definition, text, turn, stands, -, -, handed, own⟩ :=
    handed_own_iff compilesBy substitutedSave_failure decoded (substituted_defining "other") passed
  cases stands
  have second : definition.body = "two" := by
    have known := substituted_turn
    rw [← counted] at known
    exact Option.some.inj ((congrArg (Option.map Definition.body) turn).symm.trans known)
  rw [second] at handed own
  exact ⟨container, body, decoded, passed, handed, own⟩

/-- A call can be handed a body other than its own. -/
theorem Stock.handed_other_body :
    ∃ container body, substitutedSave.failure = none ∧
      (Container.decode {} ⟨1, 0⟩).outcome substitutedSave.bytes = .ok container ∧
      (substitutedCall "other").defining? = some substitutedDefining ∧
      (((ofContainer container).after [substitutedCall "one"]).serve
        (substitutedCall "other")).1[2]? = some (.precompiled body) ∧
      (body.block == bodyBlock (substitutedDefining.source "other")) = false := by
  obtain ⟨container, body, decoded, -, passed, foreign⟩ := substituted_passed
  exact ⟨container, body, substitutedSave_failure, decoded, substituted_defining "other", passed,
    foreign⟩

end CompiledScript
