import CompiledScript.Proofs.HostSteps
import CompiledScript.Splice.Basic
import Mathlib.Logic.Function.Basic

/-!
# Command tables

A host keeps its commands in a table, and this module fixes what may be relied on
when the table is changed from outside: a command is renamed exactly if it is
there and the new name is free, an interceptor is bound to any name, and a command
is deleted exactly if it is there.  Several spellings of a name may stand for one
place in the table.  Nothing is assumed of what a host does when it runs a block.
A host that may refuse any of these changes is described apart (`RefusingTable`), and
how far a call gets on such a host is listed once (`Splice.Attempt`, `Splice.Removal`).

A splice is a change of two places of the table, and removing it is another.  The
main lemma says what the second makes of the first: if the two places have not
been touched in between, then they are as they were before the splice, whatever
else has become of the table.
-/

set_option autoImplicit false

namespace CompiledScript

variable {σ ν κ : Type}

/-- How a host keeps its commands: what stands at each place of its table, and how the actions
that change commands change it. -/
structure CommandTable (host : Host σ) (ν κ : Type) [DecidableEq ν] where
  /-- The place in the table that a name stands for. -/
  place : String → ν
  /-- What stands at each place. -/
  entries : σ → ν → Option κ
  /-- What stands at a place that an interceptor is bound to. -/
  standIn : Interceptor → κ
  hasCommand : ∀ state name, host.hasCommand state name = (entries state (place name)).isSome
  rename_ok : ∀ source target world entry,
    entries world.host (place source) = some entry → entries world.host (place target) = none →
      ∃ after, host.rename source target world = .ok () after ∧
        entries after.host = Function.update
          (Function.update (entries world.host) (place source) none) (place target) (some entry)
  rename_error : ∀ source target world,
    entries world.host (place source) = none ∨ (entries world.host (place target)).isSome →
      ∃ error after, host.rename source target world = .error error after ∧
        entries after.host = entries world.host
  register : ∀ name interceptor world,
    ∃ after, host.register name interceptor world = .ok () after ∧
      entries after.host =
        Function.update (entries world.host) (place name) (some (standIn interceptor))
  delete_ok : ∀ name world, (entries world.host (place name)).isSome →
    ∃ after, host.delete name world = .ok () after ∧
      entries after.host = Function.update (entries world.host) (place name) none
  delete_error : ∀ name world, entries world.host (place name) = none →
    ∃ error after, host.delete name world = .error error after ∧
      entries after.host = entries world.host

/-- How a host keeps its commands as far as splices rely on it.  It is left open what becomes of a
command that is renamed to a name that is taken, or of a renaming or a deletion of a command that
is not there. -/
structure CommandAccess (host : Host σ) (ν κ : Type) [DecidableEq ν] where
  /-- The place in the table that a name stands for. -/
  place : String → ν
  /-- What stands at each place. -/
  entries : σ → ν → Option κ
  /-- What stands at a place that an interceptor is bound to. -/
  standIn : Interceptor → κ
  hasCommand : ∀ state name, host.hasCommand state name = (entries state (place name)).isSome
  rename_ok : ∀ source target world entry,
    entries world.host (place source) = some entry → entries world.host (place target) = none →
      ∃ after, host.rename source target world = .ok () after ∧
        entries after.host = Function.update
          (Function.update (entries world.host) (place source) none) (place target) (some entry)
  register : ∀ name interceptor world,
    ∃ after, host.register name interceptor world = .ok () after ∧
      entries after.host =
        Function.update (entries world.host) (place name) (some (standIn interceptor))
  delete_ok : ∀ name world, (entries world.host (place name)).isSome →
    ∃ after, host.delete name world = .ok () after ∧
      entries after.host = Function.update (entries world.host) (place name) none

/-- How a host keeps its commands that may refuse to change them.  A renaming that succeeds has
found a command at the old name and none at the new one.  What is refused leaves the table as it
is. -/
structure RefusingTable (host : Host σ) (ν κ : Type) [DecidableEq ν] where
  /-- The place in the table that a name stands for. -/
  place : String → ν
  /-- What stands at each place. -/
  entries : σ → ν → Option κ
  /-- What stands at a place that an interceptor is bound to. -/
  standIn : Interceptor → κ
  hasCommand : ∀ state name, host.hasCommand state name = (entries state (place name)).isSome
  rename_ok : ∀ source target before after, host.rename source target before = .ok () after →
    ∃ entry, entries before.host (place source) = some entry ∧
      entries before.host (place target) = none ∧
        entries after.host = Function.update
          (Function.update (entries before.host) (place source) none) (place target) (some entry)
  rename_error : ∀ source target before error after,
    host.rename source target before = .error error after →
      entries after.host = entries before.host
  register_ok : ∀ name interceptor before after,
    host.register name interceptor before = .ok () after →
      entries after.host =
        Function.update (entries before.host) (place name) (some (standIn interceptor))
  register_error : ∀ name interceptor before error after,
    host.register name interceptor before = .error error after →
      entries after.host = entries before.host
  delete_ok : ∀ name before after, host.delete name before = .ok () after →
    entries after.host = Function.update (entries before.host) (place name) none
  delete_error : ∀ name before error after, host.delete name before = .error error after →
    entries after.host = entries before.host

namespace CommandTable

variable {host : Host σ} [DecidableEq ν]

/-- A renaming fails at once, or changes the two places it names. -/
theorem rename_cases (table : CommandTable host ν κ) (source target : String) (before : World σ) :
    (∃ error after, host.rename source target before = .error error after ∧
        table.entries after.host = table.entries before.host) ∨
      ∃ entry after, table.entries before.host (table.place source) = some entry ∧
        table.entries before.host (table.place target) = none ∧
          host.rename source target before = .ok () after ∧
            table.entries after.host = Function.update
              (Function.update (table.entries before.host) (table.place source) none)
              (table.place target) (some entry) := by
  by_cases impossible : table.entries before.host (table.place source) = none ∨
      (table.entries before.host (table.place target)).isSome
  · exact .inl (table.rename_error source target before impossible)
  · rw [not_or, Option.not_isSome_iff_eq_none] at impossible
    obtain ⟨there, free⟩ := impossible
    obtain ⟨entry, there⟩ := Option.ne_none_iff_exists'.mp there
    obtain ⟨after, renamed, entries⟩ := table.rename_ok source target before entry there free
    exact .inr ⟨entry, after, there, free, renamed, entries⟩

/-- A deletion fails at once, or empties the place it names. -/
theorem delete_cases (table : CommandTable host ν κ) (name : String) (before : World σ) :
    (∃ error after, host.delete name before = .error error after ∧
        table.entries after.host = table.entries before.host) ∨
      ∃ after, host.delete name before = .ok () after ∧
        table.entries after.host =
          Function.update (table.entries before.host) (table.place name) none := by
  cases there : table.entries before.host (table.place name) with
  | none => exact .inl (table.delete_error name before there)
  | some entry => exact .inr (table.delete_ok name before (Option.isSome_of_eq_some there))

end CommandTable

def CommandTable.access {host : Host σ} [DecidableEq ν] (table : CommandTable host ν κ) :
    CommandAccess host ν κ :=
  { table with }

/-- What a host does when it runs a block has no part in its table. -/
def CommandTable.withExecute {host : Host σ} [DecidableEq ν] (table : CommandTable host ν κ)
    (execute : Block → HostM σ String) : CommandTable { host with execute } ν κ :=
  { table with }

/-- Renaming a command and binding an interceptor leave the registries of the loads alone. -/
structure Host.KeepsRegistries (host : Host σ) : Prop where
  rename : ∀ source target before after,
    host.rename source target before = .ok () after → after.registries = before.registries
  register : ∀ name interceptor before after,
    host.register name interceptor before = .ok () after → after.registries = before.registries

/-! ## Splices step by step -/

namespace Splice

/-- The ways in which an attempt to splice a command ends. -/
inductive Attempt (host : Host σ) (name : String) (interceptor : Interceptor)
    (before : World σ) : EStateM.Result RuntimeError (World σ) Splice → Prop where
  | taken (taken : host.hasCommand before.host (reservedName name) = true) :
      Attempt host name interceptor before (.error (.splice (.alreadyIntercepted name)) before)
  | missing (free : host.hasCommand before.host (reservedName name) = false)
      (missing : host.hasCommand before.host name = false) :
      Attempt host name interceptor before (.error (.splice (.nothingToIntercept name)) before)
  | unmoved {error : HostError} {after : World σ}
      (refused : host.rename name (reservedName name) before = .error error after) :
      Attempt host name interceptor before (.error (.host error) after)
  | made {moved after : World σ}
      (free : host.hasCommand before.host (reservedName name) = false)
      (there : host.hasCommand before.host name = true)
      (renamed : host.rename name (reservedName name) before = .ok () moved)
      (bound : host.register name interceptor moved = .ok () after) :
      Attempt host name interceptor before (.ok ⟨name, reservedName name, .installed⟩ after)
  /-- The interceptor is refused, and the command is moved back. -/
  | movedBack {moved between after : World σ} {error : HostError}
      (renamed : host.rename name (reservedName name) before = .ok () moved)
      (refused : host.register name interceptor moved = .error error between)
      (back : host.rename (reservedName name) name between = .ok () after) :
      Attempt host name interceptor before (.error (.host error) after)
  /-- The interceptor is refused, and so is moving the command back. -/
  | stranded {moved between after : World σ} {error again : HostError}
      (renamed : host.rename name (reservedName name) before = .ok () moved)
      (refused : host.register name interceptor moved = .error error between)
      (stuck : host.rename (reservedName name) name between = .error again after) :
      Attempt host name interceptor before (.error (.host error) after)

/-- Every attempt ends in one of these ways. -/
theorem attempt (host : Host σ) (name : String) (interceptor : Interceptor) (before : World σ) :
    Attempt host name interceptor before (install host name interceptor before) := by
  rw [show install host name interceptor before = _ from Steps.bind_ok rfl]
  cases taken : host.hasCommand before.host (reservedName name) with
  | true =>
    rw [if_pos rfl]
    exact .taken taken
  | false =>
    rw [if_neg Bool.false_ne_true]
    cases there : host.hasCommand before.host name with
    | false =>
      rw [if_neg Bool.false_ne_true]
      exact .missing taken there
    | true =>
      rw [if_pos rfl]
      cases renamed : host.rename name (reservedName name) before with
      | error error after =>
        rw [Steps.bind_error (HostM.required_error renamed)]
        exact .unmoved renamed
      | ok _ moved =>
        rw [Steps.bind_ok (HostM.required_ok.mpr renamed)]
        cases bound : host.register name interceptor moved with
        | ok _ after =>
          rw [Steps.bind_ok (HostM.attempted_of_ok bound)]
          exact .made taken there renamed bound
        | error error between =>
          rw [Steps.bind_ok (HostM.attempted_of_error bound)]
          dsimp only
          cases back : host.rename (reservedName name) name between with
          | ok _ after =>
            rw [Steps.bind_ok (HostM.attempted_of_ok back)]
            exact .movedBack renamed bound back
          | error again after =>
            rw [Steps.bind_ok (HostM.attempted_of_error back)]
            exact .stranded renamed bound back

/-- The ways in which the removal of a splice ends. -/
inductive Removal (host : Host σ) (splice : Splice) (before : World σ) :
    EStateM.Result HostError (World σ) Splice → Prop where
  | idle (uninstalled : splice.state = .uninstalled) : Removal host splice before (.ok splice before)
  | undeleted {error : HostError} {after : World σ} (installed : splice.state = .installed)
      (refused : host.delete splice.name before = .error error after) :
      Removal host splice before (.error error after)
  /-- The interceptor is deleted, and moving the command back is refused. -/
  | unmoved {between after : World σ} {error : HostError} (installed : splice.state = .installed)
      (deleted : host.delete splice.name before = .ok () between)
      (refused : host.rename splice.reserved splice.name between = .error error after) :
      Removal host splice before (.error error after)
  | removed {between after : World σ} (installed : splice.state = .installed)
      (deleted : host.delete splice.name before = .ok () between)
      (back : host.rename splice.reserved splice.name between = .ok () after) :
      Removal host splice before (.ok { splice with state := .uninstalled } after)

/-- Every removal ends in one of these ways. -/
theorem removal (host : Host σ) (splice : Splice) (before : World σ) :
    Removal host splice before (splice.uninstall host before) := by
  rw [uninstall]
  cases state : splice.state with
  | uninstalled => exact .idle state
  | installed =>
    simp only
    cases deleted : host.delete splice.name before with
    | error error after =>
      rw [Steps.bind_error deleted]
      exact .undeleted state deleted
    | ok _ between =>
      rw [Steps.bind_ok deleted]
      cases back : host.rename splice.reserved splice.name between with
      | error error after =>
        rw [Steps.bind_error back]
        exact .unmoved state deleted back
      | ok _ after =>
        rw [Steps.bind_ok back]
        exact .removed state deleted back

/-- A command whose reserved name is taken is not spliced, and nothing is done. -/
theorem install_of_taken {host : Host σ} {name : String} (interceptor : Interceptor)
    {before : World σ} (taken : host.hasCommand before.host (reservedName name) = true) :
    install host name interceptor before = .error (.splice (.alreadyIntercepted name)) before := by
  refine (Steps.bind_ok rfl).trans ?_
  rw [if_pos taken]
  rfl

/-- A splice is made by renaming its command, whose reserved name has to be free, and binding the
interceptor in its place. -/
theorem install_steps {host : Host σ} {name : String} {interceptor : Interceptor}
    {before after : World σ} {splice : Splice}
    (done : install host name interceptor before = .ok splice after) :
    splice = ⟨name, reservedName name, .installed⟩ ∧
      host.hasCommand before.host (reservedName name) = false ∧
        host.hasCommand before.host name = true ∧
          ∃ renamed, host.rename name (reservedName name) before = .ok () renamed ∧
            host.register name interceptor renamed = .ok () after := by
  have attempt := attempt host name interceptor before
  rw [done] at attempt
  cases attempt with
  | made free there renamed bound => exact ⟨rfl, free, there, _, renamed, bound⟩

end Splice

/-- A registry without bodies is not spliced in, and any other is given the next number. -/
theorem SpliceSet.makePart_cases {host : Host σ} {name : String} {form : InterceptorForm}
    {registry : Registry DefinitionKey} {before after : World σ} {part : Option Installation}
    (done : makePart host name form registry before = .ok part after) :
    (registry.isEmpty = true ∧ part = none ∧ after = before) ∨
      ∃ splice, registry.isEmpty = false ∧ part = some ⟨splice, before.registries.length⟩ ∧
        Splice.install host name ⟨reservedName name, form, before.registries.length⟩
          (before.addRegistry registry) = .ok splice after := by
  rw [makePart] at done
  split at done
  · rename_i empty
    cases done
    exact .inl ⟨empty, rfl, rfl⟩
  · rename_i bodies
    obtain ⟨installation, _, made, done⟩ := Steps.of_bind done
    cases done
    obtain ⟨world, _, read, made⟩ := Steps.of_bind made
    cases read
    obtain ⟨_, grown, added, made⟩ := Steps.of_bind made
    cases added
    obtain ⟨splice, _, made, done⟩ := Steps.of_bind made
    cases done
    exact .inr ⟨splice, (Bool.not_eq_true _).mp bodies, rfl, made⟩

/-- A set of splices is made one splice after the other. -/
theorem SpliceSet.install_steps {host : Host σ} {dialect : Dialect}
    {procedures members : Registry DefinitionKey} {before after : World σ} {set : SpliceSet}
    (done : install host dialect procedures members before = .ok set after) :
    ∃ middle,
      makePart host dialect.procedure .procedures procedures before = .ok set.procedures middle ∧
        makePart host dialect.member (.members dialect) members middle =
          .ok set.members after := by
  obtain ⟨procedurePart, middle, first, done⟩ := Steps.of_bind done
  obtain ⟨early, between, attempt, done⟩ := Steps.of_bind done
  rcases Steps.of_tryCatch attempt with body | ⟨error, failed, -, handled⟩
  · obtain ⟨memberPart, _, second, body⟩ := Steps.of_bind body
    cases body
    cases done
    exact ⟨middle, first, second⟩
  · -- The handler fails with the error it was given, whatever the removal results in.
    obtain ⟨_, _, -, thrown⟩ := Steps.of_bind handled
    cases thrown

theorem SpliceSet.install_of_steps {host : Host σ} {dialect : Dialect}
    {procedures members : Registry DefinitionKey} {before middle after : World σ}
    {procedurePart memberPart : Option Installation}
    (first : makePart host dialect.procedure .procedures procedures before =
      .ok procedurePart middle)
    (second : makePart host dialect.member (.members dialect) members middle =
      .ok memberPart after) :
    install host dialect procedures members before = .ok ⟨procedurePart, memberPart⟩ after := by
  refine (Steps.bind_ok first).trans ?_
  -- The attempt ends by returning the set.
  have returned : ∀ attempt : RunM σ (Except SpliceSet SpliceSet),
      attempt middle = .ok (.error ⟨procedurePart, memberPart⟩) after →
        (attempt >>= fun early => EarlyReturn.runK early pure pure) middle =
          .ok ⟨procedurePart, memberPart⟩ after := fun _ done => Steps.bind_ok done
  exact returned _ (Steps.tryCatch_ok (Steps.bind_ok second))

/-- If the second splice cannot be made, the first is removed and the failure is reported. -/
theorem SpliceSet.install_of_failed {host : Host σ} {dialect : Dialect}
    {procedures members : Registry DefinitionKey} {before middle failed after : World σ}
    {procedurePart : Option Installation} {error : RuntimeError}
    {removed : SpliceSet × Except HostError Unit}
    (first : makePart host dialect.procedure .procedures procedures before =
      .ok procedurePart middle)
    (second : makePart host dialect.member (.members dialect) members middle =
      .error error failed)
    (undone : uninstall host ⟨procedurePart, none⟩ failed = .ok removed after) :
    install host dialect procedures members before = .error error after := by
  refine (Steps.bind_ok first).trans (Steps.bind_error ?_)
  refine (Steps.tryCatch_error (Steps.bind_error second)).trans ?_
  exact Steps.bind_ok (HostM.attempted_of_ok undone)

/-- What is left of a splice that was removed. -/
theorem SpliceSet.removePart_of_uninstall {host : Host σ} {splice left : Splice} {registry : Nat}
    {before after : World σ}
    (done : splice.uninstall host (before.setRegistry registry .empty) = .ok left after) :
    removePart host (some ⟨splice, registry⟩) before =
      .ok (some ⟨left, registry⟩, .ok ()) after := by
  have removed : Installation.remove host ⟨splice, registry⟩ before =
      .ok (⟨left, registry⟩, .ok ()) after :=
    (Steps.bind_ok rfl).trans (Steps.bind_ok (HostM.attempted_of_ok done))
  exact Steps.bind_ok removed

/-! ## Splices as changes of a table -/

namespace Splice

/-- A place where something stands is none that is free. -/
theorem ne_of_free {entries : ν → Option κ} {place other : ν} {entry : κ}
    (there : entries place = some entry) (free : entries other = none) : place ≠ other := by
  rintro rfl
  rw [free] at there
  cases there

variable [DecidableEq ν]

/-- A table in which what stood at a public place stands at a reserved one, and something else
in its place. -/
def spliced (entries : ν → Option κ) (shown reserved : ν) (entry standIn : κ) : ν → Option κ :=
  Function.update (Function.update entries reserved (some entry)) shown (some standIn)

/-- A table in which what stood at the reserved place is back at the public one. -/
def unspliced (entries : ν → Option κ) (shown reserved : ν) : ν → Option κ :=
  Function.update (Function.update entries reserved none) shown (entries reserved)

/-- A command is moved to its reserved place, and something else is put where it stood. -/
theorem spliced_of_moved (entries : ν → Option κ) {shown reserved : ν}
    (different : shown ≠ reserved) (entry standIn : κ) :
    Function.update (Function.update (Function.update entries shown none) reserved (some entry))
        shown (some standIn) = spliced entries shown reserved entry standIn := by
  rw [spliced, Function.update_comm different, Function.update_idem]

/-- What stands at the public place is deleted, and the command at the reserved place is moved
there. -/
theorem unspliced_of_moved {entries : ν → Option κ} {shown reserved : ν} {entry : κ}
    (different : shown ≠ reserved) (there : entries reserved = some entry) :
    Function.update (Function.update (Function.update entries shown none) reserved none) shown
        (some entry) = unspliced entries shown reserved := by
  rw [unspliced, there, Function.update_comm different, Function.update_idem]

theorem unspliced_of_ne {entries : ν → Option κ} {shown reserved other : ν}
    (notShown : other ≠ shown) (notReserved : other ≠ reserved) :
    unspliced entries shown reserved other = entries other := by
  rw [unspliced, Function.update_of_ne notShown, Function.update_of_ne notReserved]

/-- Removing a splice brings back the table from before it, wherever the table has not been
touched in between. -/
theorem unspliced_of_agree {before after : ν → Option κ} {shown reserved : ν} {entry standIn : κ}
    (there : before shown = some entry) (free : before reserved = none) {watched : List ν}
    (reservedWatched : reserved ∈ watched)
    (agree : ∀ place ∈ watched, after place = spliced before shown reserved entry standIn place) :
    ∀ place ∈ watched, unspliced after shown reserved place = before place := by
  have different : reserved ≠ shown := (ne_of_free there free).symm
  intro place found
  by_cases atShown : place = shown
  · rw [atShown, unspliced, Function.update_self, agree reserved reservedWatched, spliced,
      Function.update_of_ne different, Function.update_self, there]
  · rw [unspliced, Function.update_of_ne atShown]
    by_cases atReserved : place = reserved
    · rw [atReserved, Function.update_self, free]
    · rw [Function.update_of_ne atReserved, agree place found, spliced,
        Function.update_of_ne atShown, Function.update_of_ne atReserved]

variable {host : Host σ}

/-- A splice that was made: its command was there, its reserved name was free, and the table has
changed in these two places. -/
theorem spliced_of_install (access : CommandAccess host ν κ) {name : String}
    {interceptor : Interceptor} {before after : World σ} {splice : Splice}
    (done : install host name interceptor before = .ok splice after) :
    splice = ⟨name, reservedName name, .installed⟩ ∧
      ∃ entry, access.entries before.host (access.place name) = some entry ∧
        access.entries before.host (access.place (reservedName name)) = none ∧
          access.entries after.host =
            spliced (access.entries before.host) (access.place name)
              (access.place (reservedName name)) entry (access.standIn interceptor) := by
  obtain ⟨same, free, there, renamed, moved, bound⟩ := install_steps done
  rw [access.hasCommand] at free there
  rw [Option.isSome_eq_false_iff, Option.isNone_iff_eq_none] at free
  obtain ⟨entry, there⟩ := Option.isSome_iff_exists.mp there
  obtain ⟨_, moved', entriesMoved⟩ := access.rename_ok _ _ _ entry there free
  rw [moved'] at moved
  cases moved
  obtain ⟨registered, bound', entriesBound⟩ := access.register name interceptor renamed
  rw [bound'] at bound
  cases bound
  refine ⟨same, entry, there, free, ?_⟩
  rw [entriesBound, entriesMoved]
  exact spliced_of_moved _ (ne_of_free there free) _ _

/-- A splice is made if its command is there and its reserved name is free. -/
theorem install_of_free (access : CommandAccess host ν κ) {name : String}
    (interceptor : Interceptor) {before : World σ}
    (there : (access.entries before.host (access.place name)).isSome)
    (free : access.entries before.host (access.place (reservedName name)) = none) :
    ∃ after, install host name interceptor before =
      .ok ⟨name, reservedName name, .installed⟩ after := by
  have taken : host.hasCommand before.host (reservedName name) = false := by
    rw [access.hasCommand, free]
    rfl
  have shown : host.hasCommand before.host name = true := by rw [access.hasCommand, there]
  obtain ⟨entry, there⟩ := Option.isSome_iff_exists.mp there
  obtain ⟨renamed, moved, -⟩ := access.rename_ok _ _ _ entry there free
  obtain ⟨registered, bound, -⟩ := access.register name interceptor renamed
  refine ⟨registered, (Steps.bind_ok rfl).trans ?_⟩
  rw [if_neg (by rw [taken]; exact Bool.false_ne_true), if_pos shown]
  refine (Steps.bind_ok (HostM.required_ok.mpr moved)).trans ?_
  exact Steps.bind_ok (HostM.attempted_of_ok bound)

/-- A splice in force is removed if both of its names stand for something. -/
theorem unspliced_of_uninstall (access : CommandAccess host ν κ) {splice : Splice}
    {before : World σ} (installed : splice.state = .installed)
    (different : access.place splice.name ≠ access.place splice.reserved)
    (shown : (access.entries before.host (access.place splice.name)).isSome)
    (reserved : (access.entries before.host (access.place splice.reserved)).isSome) :
    ∃ after, uninstall host splice before = .ok { splice with state := .uninstalled } after ∧
      access.entries after.host =
        unspliced (access.entries before.host) (access.place splice.name)
          (access.place splice.reserved) := by
  obtain ⟨entry, reserved⟩ := Option.isSome_iff_exists.mp reserved
  obtain ⟨deleted, gone, entriesGone⟩ := access.delete_ok splice.name before shown
  have still : access.entries deleted.host (access.place splice.reserved) = some entry := by
    rw [entriesGone, Function.update_of_ne different.symm, reserved]
  have free : access.entries deleted.host (access.place splice.name) = none := by
    rw [entriesGone, Function.update_self]
  obtain ⟨after, back, entriesBack⟩ := access.rename_ok _ _ _ entry still free
  refine ⟨after, ?_, ?_⟩
  · rw [uninstall, installed]
    exact (Steps.bind_ok gone).trans (Steps.bind_ok back)
  · rw [entriesBack, entriesGone]
    exact unspliced_of_moved different reserved

/-- A command whose reserved name is taken is not spliced, and nothing is done. -/
theorem install_taken (access : CommandAccess host ν κ) {name : String}
    (interceptor : Interceptor) {before : World σ}
    (taken : (access.entries before.host (access.place (reservedName name))).isSome) :
    install host name interceptor before = .error (.splice (.alreadyIntercepted name)) before := by
  rw [← access.hasCommand] at taken
  exact install_of_taken interceptor taken

end Splice

/-- What making one splice of a set has done to the table. -/
theorem SpliceSet.makePart_entries [DecidableEq ν] {host : Host σ} (table : CommandTable host ν κ)
    {name : String} {form : InterceptorForm} {registry : Registry DefinitionKey}
    {before after : World σ} {part : Option Installation}
    (done : makePart host name form registry before = .ok part after) :
    (part = none ∧ after = before) ∨
      ∃ number entry, part = some ⟨⟨name, reservedName name, .installed⟩, number⟩ ∧
        table.entries before.host (table.place name) = some entry ∧
          table.entries before.host (table.place (reservedName name)) = none ∧
            table.entries after.host =
              Splice.spliced (table.entries before.host) (table.place name)
                (table.place (reservedName name)) entry
                (table.standIn ⟨reservedName name, form, number⟩) := by
  rcases makePart_cases done with ⟨-, rfl, rfl⟩ | ⟨splice, -, rfl, made⟩
  · exact .inl ⟨rfl, rfl⟩
  · obtain ⟨rfl, entry, there, free, entries⟩ := Splice.spliced_of_install table.access made
    exact .inr ⟨_, entry, rfl, there, free, entries⟩

end CompiledScript
