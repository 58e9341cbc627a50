import CompiledScript.Proofs.Splice.CommandTable
import CompiledScript.Replay

/-!
# Splices in force

A load can splice the definition commands of its dialect if those it has bodies for
are there and their reserved names are free, and if the two commands are different
ones with different reserved names.  Then an interceptor stands at the place of each
command that is spliced, the command itself stands at its reserved name, and the
interceptor asks a registry with the bodies of its sort.  A command that the load
has no bodies for stays where it is.

The second splice has to leave the first as it is.  It changes the place of its
command, which is not the one of the other command, and the place of its reserved
name, which is free; so whatever stands anywhere else stays there.
-/

set_option autoImplicit false

namespace CompiledScript

/-! ## The two sorts of definitions -/

/-- The command that defines procedures, or the one that defines class members. -/
def Dialect.command (dialect : Dialect) : (isMember : Bool) → String
  | false => dialect.procedure
  | true => dialect.member

/-- The form of the interceptors of a definition command. -/
def Dialect.form (dialect : Dialect) : (isMember : Bool) → InterceptorForm
  | false => .procedures
  | true => .members dialect

/-- The bodies that a load has for a definition command. -/
def Container.bodies (container : Container) : (isMember : Bool) → Registry DefinitionKey
  | false => container.procedureBodies
  | true => container.memberBodies

/-- The splice of a definition command. -/
def SpliceSet.part (set : SpliceSet) : (isMember : Bool) → Option Installation
  | false => set.procedures
  | true => set.members

variable {σ ν κ : Type} [DecidableEq ν] {host : Host σ}

namespace CommandTable

/-- The definition commands can be spliced for a container: they are different ones with different
reserved names, and each that the container has bodies for is there and its reserved name is
free. -/
structure Ready (table : CommandTable host ν κ) (dialect : Dialect) (container : Container)
    (world : World σ) : Prop where
  commands : table.place dialect.procedure ≠ table.place dialect.member
  reservedNames :
    table.place (reservedName dialect.procedure) ≠ table.place (reservedName dialect.member)
  there : ∀ isMember, (container.bodies isMember).isEmpty = false →
    (table.entries world.host (table.place (dialect.command isMember))).isSome
  free : ∀ isMember, (container.bodies isMember).isEmpty = false →
    table.entries world.host (table.place (reservedName (dialect.command isMember))) = none

/-- What stands at a place stays there. -/
def Stays (table : CommandTable host ν κ) (place : ν) (before after : World σ) : Prop :=
  ∀ entry, table.entries before.host place = some entry →
    table.entries after.host place = some entry

/-- How a command stands in `world` that was to be spliced in `start`.  If it was not spliced it is
where it was.  Otherwise its interceptor is there, and the command is at its reserved name. -/
def Stands (table : CommandTable host ν κ) (name : String) (form : InterceptorForm)
    (part : Option Installation) (start world : World σ) : Prop :=
  match part with
  | none => table.Stays (table.place name) start world
  | some installation =>
    table.entries world.host (table.place name) =
        some (table.standIn ⟨reservedName name, form, installation.registry⟩) ∧
      ∃ entry, table.entries start.host (table.place name) = some entry ∧
        table.entries world.host (table.place (reservedName name)) = some entry

variable {table : CommandTable host ν κ} {name : String} {form : InterceptorForm}
  {part : Option Installation} {start before middle after : World σ}

/-- A command that was spliced is at its reserved name. -/
theorem Stands.moved {installation : Installation}
    (stands : table.Stands name form (some installation) start after) {entry : κ}
    (there : table.entries start.host (table.place name) = some entry) :
    table.entries after.host (table.place (reservedName name)) = some entry := by
  obtain ⟨-, other, stood, moved⟩ := stands
  rw [there] at stood
  cases stood
  exact moved

/-- A command stands as before if what stands at its places stays there. -/
theorem Stands.kept (stands : table.Stands name form part start before)
    (shown : table.Stays (table.place name) before after)
    (reserved : part.isSome → table.Stays (table.place (reservedName name)) before after) :
    table.Stands name form part start after := by
  cases part with
  | none => exact fun entry there => shown entry (stands entry there)
  | some installation =>
    obtain ⟨intercepted, entry, there, moved⟩ := stands
    exact ⟨shown _ intercepted, entry, there, reserved rfl entry moved⟩

/-- It does not matter what was done to the table before the command was spliced, as long as the
command stayed. -/
theorem Stands.since (stands : table.Stands name form part before after)
    (stayed : table.Stays (table.place name) start before)
    (there : part.isSome → (table.entries start.host (table.place name)).isSome) :
    table.Stands name form part start after := by
  cases part with
  | none => exact fun entry there => stands entry (stayed entry there)
  | some installation =>
    obtain ⟨intercepted, entry, shown, moved⟩ := stands
    obtain ⟨earlier, there⟩ := Option.isSome_iff_exists.mp (there rfl)
    have same := stayed earlier there
    rw [shown] at same
    cases same
    exact ⟨intercepted, entry, there, moved⟩

end CommandTable

namespace SpliceSet

variable {name : String} {form : InterceptorForm} {registry : Registry DefinitionKey}
  {before after : World σ} {part : Option Installation}

/-! ## One splice of a set -/

theorem makePart_of_ready (table : CommandTable host ν κ) (form : InterceptorForm)
    (there : registry.isEmpty = false →
      (table.entries before.host (table.place name)).isSome)
    (free : registry.isEmpty = false →
      table.entries before.host (table.place (reservedName name)) = none) :
    ∃ part after, makePart host name form registry before = .ok part after := by
  rw [makePart]
  cases bodies : registry.isEmpty with
  | true => exact ⟨none, before, rfl⟩
  | false =>
    obtain ⟨after, made⟩ : ∃ after, Splice.install host name
        ⟨reservedName name, form, before.registries.length⟩ (before.addRegistry registry) =
          .ok ⟨name, reservedName name, .installed⟩ after :=
      Splice.install_of_free table.access _ (there bodies) (free bodies)
    refine ⟨some ⟨⟨name, reservedName name, .installed⟩, before.registries.length⟩, after, ?_⟩
    refine Steps.bind_ok ((Steps.bind_ok rfl).trans ((Steps.bind_ok rfl).trans ?_))
    exact Steps.bind_ok made

/-- What was spliced stands as it should. -/
theorem makePart_stands (table : CommandTable host ν κ)
    (done : makePart host name form registry before = .ok part after) :
    table.Stands name form part before after := by
  rcases makePart_entries table done with ⟨rfl, rfl⟩ | ⟨number, entry, rfl, there, free, entries⟩
  · exact fun entry there => there
  · have different : table.place (reservedName name) ≠ table.place name := by
      intro same
      rw [same, there] at free
      cases free
    refine ⟨?_, entry, there, ?_⟩
    · rw [entries, Splice.spliced, Function.update_self]
    · rw [entries, Splice.spliced, Function.update_of_ne different, Function.update_self]

/-- What stands anywhere but at the place of the command stays there. -/
theorem makePart_stays (table : CommandTable host ν κ)
    (done : makePart host name form registry before = .ok part after) {place : ν}
    (elsewhere : part.isSome → place ≠ table.place name) : table.Stays place before after := by
  intro entry stood
  rcases makePart_entries table done with ⟨rfl, rfl⟩ | ⟨number, _, rfl, -, free, entries⟩
  · exact stood
  · have notReserved : place ≠ table.place (reservedName name) := by
      rintro rfl
      rw [free] at stood
      cases stood
    rw [entries, Splice.spliced, Function.update_of_ne (elsewhere rfl),
      Function.update_of_ne notReserved]
    exact stood

/-- A place that is free stays free unless it is that of the reserved name. -/
theorem makePart_free (table : CommandTable host ν κ)
    (done : makePart host name form registry before = .ok part after) {place : ν}
    (free : table.entries before.host place = none)
    (notReserved : place ≠ table.place (reservedName name)) :
    table.entries after.host place = none := by
  rcases makePart_entries table done with ⟨rfl, rfl⟩ | ⟨number, entry, rfl, there, -, entries⟩
  · exact free
  · have notShown : place ≠ table.place name := (Splice.ne_of_free there free).symm
    rw [entries, Splice.spliced, Function.update_of_ne notShown,
      Function.update_of_ne notReserved]
    exact free

theorem isEmpty_of_makePart (done : makePart host name form registry before = .ok part after)
    (spliced : part.isSome) : registry.isEmpty = false := by
  rcases makePart_cases done with ⟨-, rfl, -⟩ | ⟨_, bodies, -, -⟩
  · cases spliced
  · exact bodies

/-- The registries that were there stay, and a splice adds its own behind them. -/
theorem makePart_registries (keeps : host.KeepsRegistries)
    (done : makePart host name form registry before = .ok part after) :
    after.registries = before.registries ++ if part.isSome then [registry] else [] := by
  rcases makePart_cases done with ⟨-, rfl, rfl⟩ | ⟨splice, -, rfl, made⟩
  · simp
  · obtain ⟨-, -, -, renamed, moved, bound⟩ := Splice.install_steps made
    rw [keeps.register _ _ _ _ bound, keeps.rename _ _ _ _ moved]
    rfl

theorem makePart_number {installation : Installation}
    (done : makePart host name form registry before = .ok (some installation) after) :
    installation.registry = before.registries.length := by
  rcases makePart_cases done with ⟨-, none, -⟩ | ⟨_, -, made, -⟩
  · cases none
  · cases made
    rfl

end SpliceSet

/-! ## Both splices -/

/-- The registry that a splice asks is in the world.  A command is left alone only if there is
nothing to ask for. -/
def World.Holds (world : World σ) (part : Option Installation)
    (registry : Registry DefinitionKey) : Prop :=
  match part with
  | none => registry.isEmpty = true
  | some installation => world.registries[installation.registry]? = some registry

/-- A registry stays in the world when others are added. -/
theorem World.Holds.append {before after : World σ} {part : Option Installation}
    {registry : Registry DefinitionKey} {added : List (Registry DefinitionKey)}
    (holds : before.Holds part registry) (grown : after.registries = before.registries ++ added) :
    after.Holds part registry := by
  cases part with
  | none => exact holds
  | some installation =>
    change before.registries[installation.registry]? = some registry at holds
    change after.registries[installation.registry]? = some registry
    obtain ⟨within, -⟩ := List.getElem?_eq_some_iff.mp holds
    rw [grown, List.getElem?_append_left within, holds]

theorem SpliceSet.makePart_holds (keeps : host.KeepsRegistries) {name : String}
    {form : InterceptorForm} {registry : Registry DefinitionKey} {before after : World σ}
    {part : Option Installation}
    (done : makePart host name form registry before = .ok part after) :
    after.Holds part registry := by
  have added := makePart_registries keeps done
  cases part with
  | none =>
    rcases makePart_cases done with ⟨empty, -, -⟩ | ⟨_, -, made, -⟩
    · exact empty
    · cases made
  | some installation =>
    change after.registries[installation.registry]? = some registry
    rw [added, makePart_number done]
    exact List.getElem?_concat_length

/-- The splices of a load stand and hold its bodies. -/
structure SpliceSet.InForce (table : CommandTable host ν κ) (set : SpliceSet) (dialect : Dialect)
    (container : Container) (start begun : World σ) : Prop where
  stands : ∀ isMember, table.Stands (dialect.command isMember) (dialect.form isMember)
    (set.part isMember) start begun
  holds : ∀ isMember, begun.Holds (set.part isMember) (container.bodies isMember)
  apart : ∀ isMember one other, set.part isMember = some one →
    set.part (!isMember) = some other → one.registry ≠ other.registry

/-- **A load can splice commands that are ready**, and then its splices are in force. -/
theorem SpliceSet.install_inForce (table : CommandTable host ν κ) (keeps : host.KeepsRegistries)
    {dialect : Dialect} {container : Container} {start : World σ}
    (ready : table.Ready dialect container start) :
    ∃ set begun, install host dialect container.procedureBodies container.memberBodies start =
        .ok set begun ∧ set.InForce table dialect container start begun := by
  obtain ⟨procedures, middle, first⟩ := makePart_of_ready table .procedures
    (ready.there false) (ready.free false)
  have memberStays : table.Stays (table.place dialect.member) start middle :=
    makePart_stays table first fun _ => ready.commands.symm
  have memberThere : container.memberBodies.isEmpty = false →
      (table.entries middle.host (table.place dialect.member)).isSome := by
    intro bodies
    obtain ⟨entry, there⟩ := Option.isSome_iff_exists.mp (ready.there true bodies)
    exact Option.isSome_of_eq_some (memberStays entry there)
  have memberFree : container.memberBodies.isEmpty = false →
      table.entries middle.host (table.place (reservedName dialect.member)) = none :=
    fun bodies => makePart_free table first (ready.free true bodies) ready.reservedNames.symm
  obtain ⟨members, begun, second⟩ := makePart_of_ready table (.members dialect)
    memberThere memberFree
  refine ⟨⟨procedures, members⟩, begun, install_of_steps first second, ?_, ?_, ?_⟩
  · intro isMember
    cases isMember with
    | false =>
      refine (makePart_stands table first).kept
        (makePart_stays table second fun _ => ready.commands) fun spliced => ?_
      refine makePart_stays table second fun other same => ?_
      -- The command for members was there when the reserved name of the other was free.
      have free := ready.free false (isEmpty_of_makePart first spliced)
      have there := ready.there true (isEmpty_of_makePart second other)
      rw [same] at free
      change (table.entries start.host (table.place dialect.member)).isSome = true at there
      rw [free] at there
      cases there
    | true =>
      refine (makePart_stands table second).since memberStays fun spliced => ?_
      exact ready.there true (isEmpty_of_makePart second spliced)
  · intro isMember
    cases isMember with
    | false => exact (makePart_holds keeps first).append (makePart_registries keeps second)
    | true => exact makePart_holds keeps second
  · have apart : ∀ early late, procedures = some early → members = some late →
        early.registry ≠ late.registry := by
      rintro early late rfl rfl
      have number := makePart_number second
      have held := makePart_holds keeps first
      obtain ⟨within, -⟩ := List.getElem?_eq_some_iff.mp held
      omega
    intro isMember one other here there
    cases isMember with
    | false => exact apart one other here there
    | true => exact (apart other one there here).symm

end CompiledScript
