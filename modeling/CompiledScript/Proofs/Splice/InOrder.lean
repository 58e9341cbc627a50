import CompiledScript.Proofs.Interpreter.Commands
import CompiledScript.Proofs.Splice.InForce
import CompiledScript.Proofs.Splice.Redefinition

/-!
# Replaying definitions in order

When the definitions of a script are made again in the order of the script, each
of them receives the body that was compiled for it, and in the end no body is left.
Definitions with keys of their own may come in between, and they are passed on as
they are.

What makes this work is that the tables are kept in the order of the scan.  The
bodies that a registry still holds are those of the definitions of its sort that
are still to come, in order.  So the body that a definition asks for is the first
one its registry holds, and it is the first of its key whatever other definitions
have the same key; and a key that is none of the script's is not found at any time.

A host may do anything between two calls but move or replace the definition
commands and reach into the registries of the load, which only the interceptors
have.
-/

set_option autoImplicit false

namespace CompiledScript

variable {σ ν κ : Type} [DecidableEq ν] {host : Host σ}

/-! ## Runs of calls -/

/-- Where a call gets to: the name of a command, what the command is called with, and the world
that it is called in. -/
structure Arrival (σ : Type) where
  command : String
  arguments : List Argument
  world : World σ

/-- Where a call of a definition command gets to.  The interceptor that stands at the place of a
command that was spliced passes the call on, whatever becomes of it then; a command that was not
spliced is called itself. -/
def CommandTable.Forwards (table : CommandTable host ν κ) (command : String)
    (part : Option Installation) (call : InterceptedCall) (before : World σ)
    (arrival : Arrival σ) : Prop :=
  match part with
  | none => arrival = ⟨command, call.arguments, before⟩
  | some _ => ∀ interceptor,
    table.entries before.host (table.place command) = some (table.standIn interceptor) →
      ∀ invoke, interceptor.run host.currentNamespace invoke call.arguments before =
        invoke arrival.command arrival.arguments arrival.world

namespace SpliceSet

/-- What a host leaves as it is between two calls: the registries of a load and the places of the
definition commands. -/
structure Keeps (table : CommandTable host ν κ) (set : SpliceSet) (dialect : Dialect)
    (before after : World σ) : Prop where
  registries : ∀ isMember installation, set.part isMember = some installation →
    after.registries[installation.registry]? = before.registries[installation.registry]?
  shown : ∀ isMember, table.entries after.host (table.place (dialect.command isMember)) =
    table.entries before.host (table.place (dialect.command isMember))
  reserved : ∀ isMember,
    table.entries after.host (table.place (reservedName (dialect.command isMember))) =
      table.entries before.host (table.place (reservedName (dialect.command isMember)))

/-- A call of a definition command while the splices of a load are in force, and where it gets
to. -/
structure Played (table : CommandTable host ν κ) (set : SpliceSet) (dialect : Dialect)
    (before : World σ) (call : InterceptedCall) (arrival : Arrival σ) : Prop where
  form : call.form = dialect.form call.form.isMember
  scope : host.currentNamespace before.host = call.scope
  forwards : table.Forwards (dialect.command call.form.isMember) (set.part call.form.isMember)
    call before arrival

/-- A run of calls of the definition commands while the splices of a load are in force, with
anything else in between, and where the calls get to. -/
inductive Plays (table : CommandTable host ν κ) (set : SpliceSet) (dialect : Dialect) :
    World σ → List InterceptedCall → List (Arrival σ) → World σ → Prop
  | done (world : World σ) : Plays table set dialect world [] [] world
  | elsewhere {before between finish : World σ} {calls : List InterceptedCall}
      {arrivals : List (Arrival σ)} (kept : set.Keeps table dialect before between)
      (rest : Plays table set dialect between calls arrivals finish) :
    Plays table set dialect before calls arrivals finish
  | call {before finish : World σ} {call : InterceptedCall} {calls : List InterceptedCall}
      {arrival : Arrival σ} {arrivals : List (Arrival σ)}
      (played : set.Played table dialect before call arrival)
      (rest : Plays table set dialect arrival.world calls arrivals finish) :
    Plays table set dialect before (call :: calls) (arrival :: arrivals) finish

end SpliceSet

/-- A call of a replay.  If it makes a definition of the script, the definition and the block that
was compiled for it go with the call. -/
structure ReplayedCall where
  call : InterceptedCall
  made? : Option (Definition × Block)

namespace ReplayedCall

/-- The call is what it is taken for: either it makes the definition, or what it defines, if
anything, has none of the given keys. -/
def Fits (dialect : Dialect) (keys : List DefinitionKey) (replayed : ReplayedCall) : Prop :=
  match replayed.made? with
  | some (definition, _) => definition.MadeBy dialect replayed.call
  | none => ∀ defining, replayed.call.defining? = some defining → defining.key ∉ keys

/-- The call gets to the command that was there in `start`.  A call that makes a definition gets
there under the reserved name with the block that was compiled for the definition in the place of
the body, and any other call as it is. -/
structure Delivered (table : CommandTable host ν κ) (dialect : Dialect) (start : World σ)
    (replayed : ReplayedCall) (arrival : Arrival σ) : Prop where
  original : ∀ entry, table.entries start.host
      (table.place (dialect.command replayed.call.form.isMember)) = some entry →
    table.entries arrival.world.host (table.place arrival.command) = some entry
  own : ∀ definition block, replayed.made? = some (definition, block) →
    arrival.command = reservedName (dialect.command replayed.call.form.isMember) ∧
      ∃ body, arrival.arguments = replayed.call.arguments.dropLast ++ [.precompiled body] ∧
        body.scope = definition.scope ∧ body.arguments = definition.arguments ∧
          (body.block == block) = true
  other : replayed.made? = none → arrival.arguments = replayed.call.arguments

end ReplayedCall

/-! ## One call -/

/-- What is the same for all that may become of a call is the same call. -/
theorem HostM.eq_of_invoke {target other : String} {passed others : List Argument}
    {world after : World σ}
    (same : ∀ invoke : String → List Argument → HostM σ String,
      invoke target passed world = invoke other others after) :
    target = other ∧ passed = others ∧ world = after := by
  classical
  have reached := same fun name arguments now =>
    if name = target ∧ arguments = passed ∧ now = world then .ok "" now else .error ⟨""⟩ now
  simp only [and_self, if_true] at reached
  split at reached
  · rename_i equal
    exact ⟨equal.1.symm, equal.2.1.symm, equal.2.2.symm⟩
  · cases reached

/-- A call of a spliced command gets to its reserved name, and its interceptor has asked its
registry. -/
theorem CommandTable.Forwards.arrival_eq {table : CommandTable host ν κ} {command : String}
    {form : InterceptorForm} {installation : Installation} {call : InterceptedCall}
    {start before : World σ} {arrival : Arrival σ} {registry : Registry DefinitionKey}
    (forwards : table.Forwards command (some installation) call before arrival)
    (stands : table.Stands command form (some installation) start before)
    (holds : before.Holds (some installation) registry)
    (scope : host.currentNamespace before.host = call.scope) :
    arrival = ⟨reservedName command, (form.passOn call.scope registry call.arguments).1,
      before.setRegistry installation.registry
        (form.passOn call.scope registry call.arguments).2⟩ := by
  obtain ⟨target, passed, after⟩ := arrival
  have held : before.registry installation.registry = registry := by
    change before.registries[installation.registry]? = some registry at holds
    rw [World.registry, holds, Option.getD_some]
  rw [← scope, ← held]
  obtain ⟨rfl, rfl, rfl⟩ := HostM.eq_of_invoke fun invoke =>
    (forwards _ stands.1 invoke).symm.trans (Interceptor.run_eq _ _ _ _ _)
  rfl

namespace SpliceSet

/-- A load while the definitions `pairs` are still to come: its splices stand, and what its
registries hold serves these definitions in order. -/
structure Aligned (table : CommandTable host ν κ) (set : SpliceSet) (dialect : Dialect)
    (start world : World σ) (pairs : List (Definition × Block)) : Prop where
  stands : ∀ isMember, table.Stands (dialect.command isMember) (dialect.form isMember)
    (set.part isMember) start world
  holds : ∀ isMember, ∃ registry, world.Holds (set.part isMember) registry ∧
    List.Forall₂ (fun pair entry => pair.1.Served pair.2 entry)
      (pairs.filter fun pair => pair.1.kind.isMember == isMember) registry.entries
  apart : ∀ isMember one other, set.part isMember = some one →
    set.part (!isMember) = some other → one.registry ≠ other.registry

namespace Aligned

variable {table : CommandTable host ν κ} {set : SpliceSet} {dialect : Dialect}
  {start before after : World σ} {pairs : List (Definition × Block)}

/-- What a host does between two calls does not matter. -/
theorem kept (aligned : set.Aligned table dialect start before pairs)
    (kept : set.Keeps table dialect before after) :
    set.Aligned table dialect start after pairs where
  stands isMember := (aligned.stands isMember).kept
    (fun entry there => (kept.shown isMember).trans there)
    (fun _ entry there => (kept.reserved isMember).trans there)
  holds isMember := by
    obtain ⟨registry, holds, served⟩ := aligned.holds isMember
    refine ⟨registry, ?_, served⟩
    cases part : set.part isMember with
    | none =>
      rw [part] at holds
      exact holds
    | some installation =>
      rw [part] at holds
      exact (kept.registries isMember installation part).trans holds
  apart := aligned.apart

/-- Asking one of the registries leaves the load aligned with what is still to come if its bodies
serve what is still to come of its sort, and nothing of the other sort was dealt with. -/
theorem asked (aligned : set.Aligned table dialect start before pairs) {isMember : Bool}
    {installation : Installation} (part : set.part isMember = some installation)
    {left : Registry DefinitionKey} {rest : List (Definition × Block)}
    (served : List.Forall₂ (fun pair entry => pair.1.Served pair.2 entry)
      (rest.filter fun pair => pair.1.kind.isMember == isMember) left.entries)
    (others : (rest.filter fun pair => pair.1.kind.isMember == !isMember) =
      pairs.filter fun pair => pair.1.kind.isMember == !isMember) :
    set.Aligned table dialect start (before.setRegistry installation.registry left) rest where
  stands := aligned.stands
  holds sort := by
    obtain ⟨registry, holds, kept⟩ := aligned.holds sort
    by_cases same : sort = isMember
    · subst same
      refine ⟨left, ?_, served⟩
      rw [part] at holds ⊢
      obtain ⟨within, -⟩ := List.getElem?_eq_some_iff.mp holds
      exact List.getElem?_set_self within
    · obtain rfl : sort = !isMember := Bool.eq_not_of_ne same
      refine ⟨registry, ?_, others ▸ kept⟩
      cases other : set.part (!isMember) with
      | none =>
        rw [other] at holds
        exact holds
      | some installed =>
        rw [other] at holds
        have apart := aligned.apart isMember installation installed part other
        exact (List.getElem?_set_ne apart).trans holds
  apart := aligned.apart

/-- The definition that comes first is made with its body. -/
theorem own {definition : Definition} {block : Block} {replayed : ReplayedCall}
    {arrival : Arrival σ}
    (aligned : set.Aligned table dialect start before ((definition, block) :: pairs))
    (made : definition.MadeBy dialect replayed.call)
    (own : replayed.made? = some (definition, block))
    (played : set.Played table dialect before replayed.call arrival) :
    replayed.Delivered table dialect start arrival ∧
      set.Aligned table dialect start arrival.world pairs := by
  obtain ⟨form, scope, forwards⟩ := played
  have sort := made.form_eq
  obtain ⟨⟨entries⟩, holds, served⟩ := aligned.holds replayed.call.form.isMember
  have stands := aligned.stands replayed.call.form.isMember
  rw [List.filter_cons_of_pos (by rw [sort, beq_self_eq_true])] at served
  obtain _ | ⟨first, others⟩ := served
  rename_i entry entries
  cases part : set.part replayed.call.form.isMember with
  | none =>
    rw [part] at holds
    cases holds
  | some installation =>
    rw [part] at forwards stands holds
    obtain ⟨defining, asked⟩ := made.asked
    have passed := InterceptedCall.passOn_first asked first entries
    rw [form] at passed
    obtain rfl := forwards.arrival_eq stands holds scope
    rw [passed]
    refine ⟨⟨fun entry there => stands.moved there, ?_, ?_⟩, aligned.asked part ?_ ?_⟩
    · intro other compiled same
      rw [own] at same
      cases same
      refine ⟨rfl, entry.2, rfl, first.scope.symm, first.arguments.symm, ?_⟩
      exact (Block.equal_iff_same first.block.wellFormed first.block.same_symm.wellFormed).mpr
        first.block.same_symm
    · intro none
      rw [own] at none
      cases none
    · exact others
    · refine (List.filter_cons_of_neg ?_).symm
      rw [sort]
      simp

/-- A call that makes no definition of the script is passed on as it is. -/
theorem other {keys : List DefinitionKey} {replayed : ReplayedCall} {arrival : Arrival σ}
    (aligned : set.Aligned table dialect start before pairs)
    (within : ∀ pair ∈ pairs, pair.1.key ∈ keys)
    (absent : ∀ defining, replayed.call.defining? = some defining → defining.key ∉ keys)
    (unmade : replayed.made? = none)
    (played : set.Played table dialect before replayed.call arrival) :
    replayed.Delivered table dialect start arrival ∧
      set.Aligned table dialect start arrival.world pairs := by
  obtain ⟨form, scope, forwards⟩ := played
  obtain ⟨registry, holds, served⟩ := aligned.holds replayed.call.form.isMember
  have stands := aligned.stands replayed.call.form.isMember
  have notOwn : ∀ definition block, replayed.made? ≠ some (definition, block) := by
    intro definition block
    rw [unmade]
    exact (Option.some_ne_none _).symm
  cases part : set.part replayed.call.form.isMember with
  | none =>
    rw [part] at forwards stands
    cases forwards
    exact ⟨⟨stands, fun _ _ own => (notOwn _ _ own).elim, fun _ => rfl⟩, aligned⟩
  | some installation =>
    rw [part] at forwards stands holds
    have passed : replayed.call.form.passOn replayed.call.scope registry replayed.call.arguments =
        (replayed.call.arguments, registry) := by
      refine InterceptedCall.passOn_other fun defining asked entry listed same => ?_
      obtain ⟨pair, found, serves⟩ := Pairing.origin served listed
      have known := within pair (List.mem_of_mem_filter found)
      rw [serves.key, same] at known
      exact absent defining asked known
    rw [form] at passed
    obtain rfl := forwards.arrival_eq stands holds scope
    rw [passed]
    exact ⟨⟨fun entry there => stands.moved there, fun _ _ own => (notOwn _ _ own).elim,
      fun _ => rfl⟩, aligned.asked part served rfl⟩

/-- When nothing is still to come no body is left. -/
theorem unconsumed (aligned : set.Aligned table dialect start after []) :
    set.unconsumed after = (0, 0) := by
  have consumed : ∀ isMember, (set.part isMember).elim 0 (Installation.unconsumed after) = 0 := by
    intro isMember
    obtain ⟨⟨entries⟩, holds, served⟩ := aligned.holds isMember
    obtain _ | _ := served
    cases part : set.part isMember with
    | none => rfl
    | some installation =>
      rw [part] at holds
      change after.registries[installation.registry]? = some ⟨[]⟩ at holds
      rw [Option.elim_some, Installation.unconsumed, World.registry, holds]
      rfl
  exact Prod.ext (consumed false) (consumed true)

end Aligned

/-! ## Whole runs -/

/-- **Each call of a run is delivered, and the load stays aligned with what is still to come.** -/
theorem Plays.delivered {table : CommandTable host ν κ} {set : SpliceSet} {dialect : Dialect}
    {start before finish : World σ} {keys : List DefinitionKey} {calls : List ReplayedCall}
    {arrivals : List (Arrival σ)}
    (plays : set.Plays table dialect before (calls.map ReplayedCall.call) arrivals finish)
    (aligned : set.Aligned table dialect start before (calls.filterMap ReplayedCall.made?))
    (within : ∀ pair ∈ calls.filterMap ReplayedCall.made?, pair.1.key ∈ keys)
    (fits : ∀ replayed ∈ calls, replayed.Fits dialect keys) :
    List.Forall₂ (fun replayed arrival => replayed.Delivered table dialect start arrival) calls
        arrivals ∧ set.Aligned table dialect start finish [] := by
  generalize whole : calls.map ReplayedCall.call = played at plays
  induction plays generalizing calls with
  | done world =>
    obtain rfl := List.map_eq_nil_iff.mp whole
    exact ⟨.nil, aligned⟩
  | elsewhere kept rest ih => exact ih (aligned.kept kept) within fits whole
  | call played rest ih =>
    obtain ⟨replayed, others, rfl, rfl, same⟩ := List.map_eq_cons_iff.mp whole
    have here := fits replayed List.mem_cons_self
    have there := fun other listed => fits other (List.mem_cons_of_mem _ listed)
    cases made : replayed.made? with
    | none =>
      rw [ReplayedCall.Fits, made] at here
      rw [List.filterMap_cons_none made] at aligned within
      obtain ⟨delivered, aligned⟩ := aligned.other within here made played
      obtain ⟨deliveries, aligned⟩ := ih aligned within there same
      exact ⟨.cons delivered deliveries, aligned⟩
    | some pair =>
      rw [ReplayedCall.Fits, made] at here
      rw [List.filterMap_cons_some made] at aligned within
      obtain ⟨delivered, aligned⟩ := aligned.own here made played
      obtain ⟨deliveries, aligned⟩ := ih aligned
        (fun other listed => within other (List.mem_cons_of_mem _ listed)) there same
      exact ⟨.cons delivered deliveries, aligned⟩

end SpliceSet

/-! ## Calls can be played -/

/-- Every call gets somewhere. -/
theorem CommandTable.exists_forwards {table : CommandTable host ν κ}
    (distinct : Function.Injective table.standIn) {command : String} {form : InterceptorForm}
    {part : Option Installation} {start before : World σ}
    (stands : table.Stands command form part start before) (call : InterceptedCall) :
    ∃ arrival, table.Forwards command part call before arrival ∧
      arrival.world.host = before.host := by
  cases part with
  | none => exact ⟨⟨command, call.arguments, before⟩, rfl, rfl⟩
  | some installation =>
    let served := form.passOn (host.currentNamespace before.host)
      (before.registry installation.registry) call.arguments
    refine ⟨⟨reservedName command, served.1, before.setRegistry installation.registry served.2⟩,
      fun interceptor found invoke => ?_, rfl⟩
    have same := distinct (Option.some.inj (stands.1.symm.trans found))
    subst same
    exact Interceptor.run_eq _ _ _ _ _

/-- Any calls of the definition commands that are made in the current namespace can be played, on
a host that tells its interceptors apart. -/
theorem SpliceSet.exists_plays {table : CommandTable host ν κ}
    (distinct : Function.Injective table.standIn) {set : SpliceSet} {dialect : Dialect}
    {start begun : World σ}
    (stands : ∀ isMember, table.Stands (dialect.command isMember) (dialect.form isMember)
      (set.part isMember) start begun)
    (calls : List InterceptedCall)
    (known : ∀ call ∈ calls, call.form = dialect.form call.form.isMember ∧
      host.currentNamespace begun.host = call.scope) :
    ∃ arrivals finish, set.Plays table dialect begun calls arrivals finish := by
  induction calls generalizing begun with
  | nil => exact ⟨[], begun, .done begun⟩
  | cons call calls ih =>
    obtain ⟨form, scope⟩ := known call List.mem_cons_self
    obtain ⟨arrival, forwards, unchanged⟩ :=
      CommandTable.exists_forwards distinct (stands call.form.isMember) call
    have later : ∀ isMember, table.Stands (dialect.command isMember) (dialect.form isMember)
        (set.part isMember) start arrival.world := fun isMember =>
      (stands isMember).kept (fun _ there => unchanged ▸ there) fun _ _ there => unchanged ▸ there
    obtain ⟨arrivals, finish, plays⟩ := ih later fun other listed => by
      rw [unchanged]
      exact known other (List.mem_cons_of_mem _ listed)
    exact ⟨arrival :: arrivals, finish, .call ⟨form, scope, forwards⟩ plays⟩

/-! ## Replays of saved scripts -/

/-- The keys of all bodies of a container. -/
def Container.keys (container : Container) : List DefinitionKey :=
  (container.procedureBodies.entries ++ container.memberBodies.entries).map Prod.fst

/-- The definitions of a sort are served by the bodies that a load has for them. -/
theorem Container.Compiled.served {τ : Type} {saver : Host τ} {dialect : Dialect} {source : String}
    {world : World τ} {saved container : Container} {pairs : List (Definition × Block)}
    (compiled : saved.Compiled (scan source dialect) pairs)
    (savedFrom : saved.SavedFrom saver dialect source world) (same : saved.Same container)
    (isMember : Bool) :
    List.Forall₂ (fun pair entry => pair.1.Served pair.2 entry)
      (pairs.filter fun pair => pair.1.kind.isMember == isMember)
      (container.bodies isMember).entries := by
  cases isMember with
  | false =>
    simp only [beq_false]
    exact compiled.procedures_served savedFrom same
  | true =>
    simp only [beq_true]
    exact compiled.members_served savedFrom same

/-- The definitions of a saved script have the keys of its bodies. -/
theorem Container.Compiled.key_mem {τ : Type} {saver : Host τ} {dialect : Dialect}
    {source : String} {world : World τ} {saved container : Container}
    {pairs : List (Definition × Block)} (compiled : saved.Compiled (scan source dialect) pairs)
    (savedFrom : saved.SavedFrom saver dialect source world) (same : saved.Same container)
    {pair : Definition × Block} (listed : pair ∈ pairs) : pair.1.key ∈ container.keys := by
  obtain ⟨entry, held, served⟩ := Pairing.partner
    (compiled.served savedFrom same pair.1.kind.isMember)
    (List.mem_filter.mpr ⟨listed, beq_self_eq_true _⟩)
  rw [served.key]
  refine List.mem_map_of_mem (List.mem_append.mpr ?_)
  cases sort : pair.1.kind.isMember with
  | false =>
    rw [sort] at held
    exact .inl held
  | true =>
    rw [sort] at held
    exact .inr held

/-- **Replaying the definitions of a saved script in their order hands out every body once and in
the right place.**  Let a script be saved by one host and be read back, and let the definition
commands of another host be ready to be spliced for what was read.  Then they can be spliced, and
every run of calls that makes the definitions of the scan in order, with any other calls in between
whose keys are not in the tables, gets to the commands that were there before: a call that makes a
definition with a block equal to the one that was compiled for it in the place of the body, and any
other call as it is.  In the end no body is left. -/
theorem replay_in_order {τ : Type} {saver : Host τ} (compiles : saver.CompilesWell)
    (table : CommandTable host ν κ) (keeps : host.KeepsRegistries) {options : Options}
    {room : Room} {source : String} {world after : World τ} {bytes : Bytes}
    (done : save saver options room source world = ⟨after, bytes, none⟩) {limits : Limits}
    {running : RuntimeVersion} {container : Container}
    (decoded : (Container.decode limits running).outcome bytes = .ok container) {start : World σ}
    (ready : table.Ready options.dialect container start) :
    ∃ saved pairs set begun,
      Container.ofScript saver options.dialect source world = .ok saved after ∧
      saved.Compiled (scan source options.dialect) pairs ∧
      (∀ pair ∈ pairs, Save.Compiled saver pair.1 pair.2) ∧
      SpliceSet.install host options.dialect container.procedureBodies container.memberBodies
        start = .ok set begun ∧
      ∀ calls arrivals finish, calls.filterMap ReplayedCall.made? = pairs →
        (∀ replayed ∈ calls, replayed.Fits options.dialect container.keys) →
        set.Plays table options.dialect begun (calls.map ReplayedCall.call) arrivals finish →
          List.Forall₂ (fun replayed arrival =>
            replayed.Delivered table options.dialect start arrival) calls arrivals ∧
          set.unconsumed finish = (0, 0) := by
  obtain ⟨saved, made, same⟩ := save_decoded compiles done decoded
  have savedFrom := Container.savedFrom_ofScript made
  obtain ⟨pairs, compiled⟩ := savedFrom.exists_compiled
  obtain ⟨set, begun, installed, inForce⟩ := SpliceSet.install_inForce table keeps ready
  refine ⟨saved, pairs, set, begun, made, compiled,
    fun pair listed => compiled.body savedFrom listed, installed, ?_⟩
  rintro calls arrivals finish rfl fits plays
  have aligned : set.Aligned table options.dialect start begun
      (calls.filterMap ReplayedCall.made?) :=
    ⟨inForce.stands, fun isMember =>
      ⟨_, inForce.holds isMember, compiled.served savedFrom same isMember⟩, inForce.apart⟩
  obtain ⟨deliveries, finished⟩ := plays.delivered aligned
    (fun pair listed => compiled.key_mem savedFrom same listed) fits
  exact ⟨deliveries, finished.unconsumed⟩

namespace Interpreter

/-- A script that defines a procedure three times, once with other arguments, and a class
member in between. -/
def repeatedScript : String :=
  "proc f {} {emit 1}\nproc f {x} {emit 2}\noo::define c method m {} {emit 3}\nproc f {} {emit 4}"

/-- An interpreter that has not done anything yet. -/
def fresh : World Interpreter := ⟨.ofVersion ⟨1, 0⟩, []⟩

/-- What the script is saved as. -/
def repeatedSave : SaveOutcome Interpreter := save Interpreter.host {} none repeatedScript fresh

/-- Calls that make the definitions of the script in order, with a definition of another procedure
and a call that is no definition in between. -/
def repeatedCalls : List InterceptedCall :=
  [⟨.procedures, "::", ["f", "", "one"].map .text⟩,
    ⟨.procedures, "::", ["g", "", "other"].map .text⟩,
    ⟨.procedures, "::", ["::f", "x", "two"].map .text⟩,
    ⟨.members {}, "::", ["c", "method", "m", "", "three"].map .text⟩,
    ⟨.members {}, "::", ["c", "superclass", "d"].map .text⟩,
    ⟨.procedures, "::", ["f", "", "four"].map .text⟩]

theorem repeated_definitions : (scan repeatedScript {}).definitions =
    [⟨"::f", "::", "", "emit 1", .procedure, 1⟩, ⟨"::f", "::", "x", "emit 2", .procedure, 2⟩,
      ⟨"m", "::c", "", "emit 3", .member .method "::c", 3⟩,
      ⟨"::f", "::", "", "emit 4", .procedure, 4⟩] := by
  decide +kernel

/-- The keys of the bodies of the script. -/
def repeatedKeys : List DefinitionKey :=
  [.procedure "::f", .procedure "::f", .procedure "::f", .member "::c" .method "m"]

/-- The keys of the container that the script is read back as, and the namespace that is current
when its splices have been made. -/
def repeatedStart : Option (List DefinitionKey × String) :=
  match (Container.decode {} ⟨1, 0⟩).outcome repeatedSave.bytes with
  | .error _ => none
  | .ok container =>
    match SpliceSet.install Interpreter.host {} container.procedureBodies container.memberBodies
      fresh with
    | .error _ _ => none
    | .ok _ begun => some (container.keys, begun.host.currentNamespace)

theorem repeated_start : repeatedStart = some (repeatedKeys, Name.global) := by decide +kernel

/-- The calls, each with what it makes of the definitions of the script. -/
def repeatedReplay (pairs : List (Definition × Block)) : List ReplayedCall :=
  List.zipWith ReplayedCall.mk repeatedCalls
    [pairs[0]?, none, pairs[1]?, pairs[2]?, none, pairs[3]?]

theorem repeated_fits {pairs : List (Definition × Block)}
    (definitions : pairs.map Prod.fst = (scan repeatedScript {}).definitions) :
    (repeatedReplay pairs).filterMap ReplayedCall.made? = pairs ∧
      ∀ replayed ∈ repeatedReplay pairs, replayed.Fits {} repeatedKeys := by
  rw [repeated_definitions] at definitions
  obtain ⟨⟨_, one⟩, afterOne, rfl, rfl, second⟩ := List.map_eq_cons_iff.mp definitions
  obtain ⟨⟨_, two⟩, afterTwo, rfl, rfl, third⟩ := List.map_eq_cons_iff.mp second
  obtain ⟨⟨_, three⟩, afterThree, rfl, rfl, fourth⟩ := List.map_eq_cons_iff.mp third
  obtain ⟨⟨_, four⟩, none, rfl, rfl, last⟩ := List.map_eq_cons_iff.mp fourth
  obtain rfl := List.map_eq_nil_iff.mp last
  refine ⟨rfl, fun replayed listed => ?_⟩
  simp only [repeatedReplay, repeatedCalls, List.zipWith, List.mem_cons, List.not_mem_nil,
    or_false] at listed
  rcases listed with rfl | rfl | rfl | rfl | rfl | rfl
  · exact .procedure rfl (by decide +kernel)
  · intro defining asked
    cases asked
    decide +kernel
  · exact .procedure rfl (by decide +kernel)
  · exact .member rfl (by decide +kernel) (by decide +kernel) .method
  · intro defining asked
    cases asked
  · exact .procedure rfl (by decide +kernel)

/-- The calls are calls of the definition commands in the global namespace. -/
theorem repeated_known : ∀ call ∈ repeatedCalls,
    call.form = Dialect.form {} call.form.isMember ∧ Name.global = call.scope := by
  intro call listed
  simp only [repeatedCalls, List.mem_cons, List.not_mem_nil, or_false] at listed
  rcases listed with rfl | rfl | rfl | rfl | rfl | rfl <;> exact ⟨rfl, rfl⟩

/-- The definition commands of an interpreter can be spliced as long as it has not done anything. -/
theorem ready_fresh (container : Container) : commandTable.Ready {} container fresh where
  commands := by decide +kernel
  reservedNames := by decide +kernel
  there isMember _ := by
    cases isMember with
    | false => decide +kernel
    | true => decide +kernel
  free isMember _ := by
    refine Option.isNone_iff_eq_none.mp ?_
    cases isMember with
    | false => decide +kernel
    | true => decide +kernel

end Interpreter

open Interpreter in
/-- Each of the definitions receives its body, although three of them have the same key. -/
theorem replay_in_order_repeated :
    ∃ container saved pairs set begun calls arrivals finish,
      (Container.decode {} ⟨1, 0⟩).outcome repeatedSave.bytes = .ok container ∧
      Container.ofScript Interpreter.host {} repeatedScript fresh =
        .ok saved repeatedSave.world ∧
      saved.Compiled (scan repeatedScript {}) pairs ∧
      SpliceSet.install Interpreter.host {} container.procedureBodies container.memberBodies
        fresh = .ok set begun ∧
      calls.filterMap ReplayedCall.made? = pairs ∧
      calls.map ReplayedCall.call = repeatedCalls ∧
      set.Plays commandTable {} begun repeatedCalls arrivals finish ∧
      List.Forall₂ (fun replayed arrival => replayed.Delivered commandTable {} fresh arrival)
        calls arrivals ∧
      set.unconsumed finish = (0, 0) := by
  have success : repeatedSave.failure = none := Option.isNone_iff_eq_none.mp (by decide +kernel)
  have done : save Interpreter.host {} none repeatedScript fresh =
      ⟨repeatedSave.world, repeatedSave.bytes, none⟩ := by
    rw [← success]
    rfl
  have started := repeated_start
  rw [repeatedStart] at started
  cases decoded : (Container.decode {} ⟨1, 0⟩).outcome repeatedSave.bytes with
  | error error =>
    rw [decoded] at started
    cases started
  | ok container =>
    have ready := ready_fresh container
    obtain ⟨saved, pairs, set, begun, made, compiled, -, installed, delivers⟩ :=
      replay_in_order compilesWell commandTable keepsRegistries done decoded ready
    obtain ⟨_, _, again, inForce⟩ :=
      SpliceSet.install_inForce commandTable keepsRegistries ready
    rw [installed] at again
    cases again
    simp only [decoded, installed, Option.some.injEq, Prod.mk.injEq] at started
    obtain ⟨keys, current⟩ := started
    obtain ⟨arrivals, finish, plays⟩ := SpliceSet.exists_plays
      (fun _ _ => CommandEntry.interceptor.inj) inForce.stands repeatedCalls fun call listed =>
        (repeated_known call listed).imp_right current.trans
    obtain ⟨whole, fits⟩ := repeated_fits compiled.definitions
    obtain ⟨deliveries, consumed⟩ := delivers (repeatedReplay pairs) arrivals finish whole
      (keys ▸ fits) plays
    exact ⟨container, saved, pairs, set, begun, repeatedReplay pairs, arrivals, finish, rfl, made,
      compiled, installed, whole, rfl, plays, deliveries, consumed⟩

end CompiledScript
