import CompiledScript.Proofs.Splice.Obliging
import CompiledScript.Proofs.Splice.SeveralLoads

/-!
# A load gets all of its splices or none

A set of splices is made one splice after the other, and a host that takes no
interceptor at some names can end this half way: when the first command has been moved
away, when the first splice is complete, or when the second command has been moved away.
Each of these has to be undone by as many changes.

That works on every host that does not refuse to rename and to delete, whatever the names
are.  A failed attempt to splice one command leaves the table as it finds it.  So if the
second splice fails, the table is the one that the first has made, and removing the first
brings back the table from before it.  The second command may have been the reserved name
of the first, and both may have been the same command; nothing of this matters, since
nothing else stands between the first splice and its removal.

A set cannot be made only if one of its commands is missing, has its reserved name taken or
is refused an interceptor.  If it is made, an interceptor stands at the name of each command
there are bodies for, and no place but those of the two names of these commands has changed.
-/

set_option autoImplicit false

namespace CompiledScript

variable {σ ν κ : Type} [DecidableEq ν] {host : Host σ} {table : RefusingTable host ν κ}

namespace RefusingTable

/-- How a table changes where a command is spliced: the command was there, its reserved name was
free, and these two places have changed.  Without a splice the table stays. -/
inductive PartMade (table : RefusingTable host ν κ) (name : String) (form : InterceptorForm)
    (earlier later : ν → Option κ) : Option Installation → Prop
  | idle (same : later = earlier) : PartMade table name form earlier later none
  | spliced (number : Nat) {entry : κ} (there : earlier (table.place name) = some entry)
      (free : earlier (table.place (reservedName name)) = none)
      (changed : later = Splice.spliced earlier (table.place name)
        (table.place (reservedName name)) entry
        (table.standIn ⟨reservedName name, form, number⟩)) :
      PartMade table name form earlier later
        (some ⟨⟨name, reservedName name, .installed⟩, number⟩)

namespace PartMade

variable {name : String} {form : InterceptorForm} {earlier later : ν → Option κ}
  {part : Option Installation} {installation : Installation}

theorem splice_eq (made : table.PartMade name form earlier later part)
    (there : part = some installation) :
    installation.splice = ⟨name, reservedName name, .installed⟩ := by
  subst there
  cases made
  rfl

theorem free (made : table.PartMade name form earlier later part) (spliced : part.isSome) :
    earlier (table.place (reservedName name)) = none := by
  cases made with
  | idle _ => cases spliced
  | spliced _ _ free _ => exact free

/-- The interceptor stands at the name, and the command at the reserved name. -/
theorem shown (made : table.PartMade name form earlier later part)
    (there : part = some installation) :
    later (table.place name) =
        some (table.standIn ⟨reservedName name, form, installation.registry⟩) ∧
      (later (table.place (reservedName name))).isSome := by
  subst there
  cases made with
  | @spliced number entry there free changed =>
    have different := Splice.ne_of_free there free
    rw [changed, Splice.spliced, Function.update_self, Function.update_of_ne different.symm,
      Function.update_self]
    exact ⟨rfl, rfl⟩

theorem elsewhere (made : table.PartMade name form earlier later part) {place : ν}
    (untouched : part.isSome →
      place ≠ table.place name ∧ place ≠ table.place (reservedName name)) :
    later place = earlier place := by
  cases made with
  | idle same => rw [same]
  | spliced number there free changed =>
    obtain ⟨notShown, notReserved⟩ := untouched rfl
    rw [changed, Splice.spliced, Function.update_of_ne notShown,
      Function.update_of_ne notReserved]

end PartMade

end RefusingTable

namespace SpliceSet

variable {name : String} {form : InterceptorForm} {registry : Registry DefinitionKey}
  {before after : World σ} {part : Option Installation} {earlier : ν → Option κ}

/-! ## One splice of a set -/

theorem makePart_made (table : RefusingTable host ν κ)
    (done : makePart host name form registry before = .ok part after) :
    table.PartMade name form (table.entries before.host) (table.entries after.host) part := by
  rcases makePart_cases done with ⟨-, rfl, rfl⟩ | ⟨splice, -, rfl, made⟩
  · exact .idle rfl
  · obtain ⟨rfl, entry, there, free, entries⟩ := table.spliced_of_install made
    exact .spliced _ there free entries

theorem isSome_of_makePart (done : makePart host name form registry before = .ok part after) :
    part.isSome = !registry.isEmpty := by
  rcases makePart_cases done with ⟨empty, rfl, -⟩ | ⟨splice, bodies, rfl, -⟩
  · rw [empty]
    rfl
  · rw [bodies]
    rfl

/-- A splice of a set cannot be made if there are bodies for its command and this command cannot be
spliced. -/
theorem install_of_failed_makePart {error : RuntimeError}
    (failed : makePart host name form registry before = .error error after) :
    registry.isEmpty = false ∧
      Splice.install host name ⟨reservedName name, form, before.registries.length⟩
        (before.addRegistry registry) = .error error after := by
  rw [makePart] at failed
  split at failed
  · cases failed
  · rename_i bodies
    refine ⟨(Bool.not_eq_true _).mp bodies, ?_⟩
    rcases Steps.of_bind_error failed with failed | ⟨_, _, -, returned⟩
    · rcases Steps.of_bind_error failed with read | ⟨world, _, read, failed⟩
      · cases read
      · cases read
        rcases Steps.of_bind_error failed with added | ⟨_, grown, added, failed⟩
        · cases added
        · cases added
          rcases Steps.of_bind_error failed with failed | ⟨_, _, -, returned⟩
          · exact failed
          · cases returned
    · cases returned

/-- A splice that cannot be made leaves the table as it was. -/
theorem entries_of_failed_makePart (obliging : ∀ world, table.Obliging world)
    {error : RuntimeError} (failed : makePart host name form registry before = .error error after) :
    table.entries after.host = table.entries before.host := by
  obtain ⟨-, failed⟩ := install_of_failed_makePart failed
  have kept := table.entries_of_failed_install obliging failed
  exact kept

theorem obstructed_of_failed_makePart (obliging : ∀ world, table.Obliging world)
    {error : RuntimeError} (failed : makePart host name form registry before = .error error after) :
    registry.isEmpty = false ∧ table.Obstructed name (table.entries before.host) := by
  obtain ⟨bodies, failed⟩ := install_of_failed_makePart failed
  have obstructed := table.obstructed_of_failed_install obliging failed
  exact ⟨bodies, obstructed⟩

/-- Removing the first splice of a set right after it was made brings back the table from before
it. -/
theorem uninstall_of_partMade (obliging : ∀ world, table.Obliging world)
    (made : table.PartMade name form earlier (table.entries before.host) part) :
    ∃ left after, uninstall host ⟨part, none⟩ before = .ok (left, .ok ()) after ∧
      table.entries after.host = earlier := by
  have stood := made
  cases made with
  | idle same => exact ⟨⟨none, none⟩, before, rfl, same⟩
  | @spliced number entry there free changed =>
    obtain ⟨shown, reserved⟩ := stood.shown rfl
    have different : table.place name ≠ table.place (reservedName name) :=
      Splice.ne_of_free there free
    obtain ⟨after, removed, back⟩ :
        ∃ after, Splice.uninstall host ⟨name, reservedName name, .installed⟩
            (before.setRegistry number .empty) =
            .ok ⟨name, reservedName name, .uninstalled⟩ after ∧
          table.entries after.host = Splice.unspliced (table.entries before.host)
            (table.place name) (table.place (reservedName name)) :=
      table.unspliced_of_uninstall (RefusingTable.obligingFor_of_always obliging _ _) rfl different
        (Option.isSome_of_eq_some shown) reserved
    refine ⟨_, after, (Steps.bind_ok rfl).trans (Steps.bind_ok (removePart_of_uninstall removed)),
      ?_⟩
    rw [back, changed]
    funext place
    exact Splice.unspliced_of_agree there free List.mem_cons_self (fun _ _ => rfl) place
      (List.mem_cons_of_mem _ (List.mem_singleton_self place))

/-! ## Both splices -/

/-- What a set of splices that was made has done to the table. -/
structure Intercepts (table : RefusingTable host ν κ) (dialect : Dialect)
    (procedures members : Registry DefinitionKey) (before after : World σ) (set : SpliceSet) :
    Prop where
  /-- Exactly the commands that there are bodies for are spliced. -/
  bodies : ∀ isMember,
    (set.part isMember).isSome = !(bif isMember then members else procedures).isEmpty
  installed : ∀ isMember installation, set.part isMember = some installation →
    installation.splice =
      ⟨dialect.command isMember, reservedName (dialect.command isMember), .installed⟩
  /-- The table has changed by the one splice after the other. -/
  inTurn : ∃ middle,
    table.PartMade dialect.procedure .procedures (table.entries before.host) middle
        set.procedures ∧
      table.PartMade dialect.member (.members dialect) middle (table.entries after.host)
        set.members
  /-- The interceptor of each command stands at its name, if names that stand for one place have
  reserved names that do. -/
  shown : (table.place dialect.procedure = table.place dialect.member →
      table.place (reservedName dialect.procedure) = table.place (reservedName dialect.member)) →
    ∀ isMember installation, set.part isMember = some installation →
      table.entries after.host (table.place (dialect.command isMember)) =
        some (table.standIn ⟨reservedName (dialect.command isMember), dialect.form isMember,
          installation.registry⟩)
  /-- It asks for the bodies of its command, if the host leaves these alone. -/
  asks : host.KeepsRegistries → ∀ isMember,
    after.Holds (set.part isMember) (bif isMember then members else procedures)
  /-- Nothing but the places of the two names of the spliced commands has changed. -/
  elsewhere : ∀ place, (∀ isMember, (set.part isMember).isSome →
      place ≠ table.place (dialect.command isMember) ∧
        place ≠ table.place (reservedName (dialect.command isMember))) →
    table.entries after.host place = table.entries before.host place

variable {dialect : Dialect} {procedures members : Registry DefinitionKey} {set : SpliceSet}

/-- Where both commands are spliced, the second splice leaves the interceptor of the first. -/
theorem shown_of_later {middle later : ν → Option κ} {first second : Option Installation}
    {installation : Installation}
    (alike : table.place dialect.procedure = table.place dialect.member →
      table.place (reservedName dialect.procedure) = table.place (reservedName dialect.member))
    (made : table.PartMade dialect.procedure .procedures earlier middle first)
    (there : first = some installation)
    (thenMade : table.PartMade dialect.member (.members dialect) middle later second) :
    later (table.place dialect.procedure) = middle (table.place dialect.procedure) := by
  obtain ⟨shown, reserved⟩ := made.shown there
  obtain ⟨_, reserved⟩ := Option.isSome_iff_exists.mp reserved
  refine thenMade.elsewhere fun spliced => ?_
  have free := thenMade.free spliced
  exact ⟨fun same => Splice.ne_of_free reserved free (alike same), Splice.ne_of_free shown free⟩

theorem intercepts_of_install (table : RefusingTable host ν κ)
    (done : install host dialect procedures members before = .ok set after) :
    set.Intercepts table dialect procedures members before after := by
  obtain ⟨middle, first, second⟩ := install_steps done
  have made := makePart_made table first
  have thenMade := makePart_made table second
  constructor
  case bodies =>
    intro isMember
    cases isMember with
    | false => exact isSome_of_makePart first
    | true => exact isSome_of_makePart second
  case installed =>
    intro isMember installation there
    cases isMember with
    | false => exact made.splice_eq there
    | true => exact thenMade.splice_eq there
  case inTurn => exact ⟨_, made, thenMade⟩
  case shown =>
    intro alike isMember installation there
    cases isMember with
    | false => exact (shown_of_later alike made there thenMade).trans (made.shown there).1
    | true => exact (thenMade.shown there).1
  case asks =>
    intro keeps isMember
    cases isMember with
    | false => exact (makePart_holds keeps first).append (makePart_registries keeps second)
    | true => exact makePart_holds keeps second
  case elsewhere =>
    intro place outside
    rw [thenMade.elsewhere (outside true), made.elsewhere (outside false)]

/-- Why a set of splices cannot be made: a command that there are bodies for cannot be spliced.  The
second command meets the table that the first splice has made. -/
inductive Obstructed (table : RefusingTable host ν κ) (dialect : Dialect)
    (procedures members : Registry DefinitionKey) (entries : ν → Option κ) : Prop
  | first (bodies : procedures.isEmpty = false)
      (obstructed : table.Obstructed dialect.procedure entries)
  | second {middle : ν → Option κ} {part : Option Installation}
      (made : table.PartMade dialect.procedure .procedures entries middle part)
      (spliced : part.isSome = !procedures.isEmpty) (bodies : members.isEmpty = false)
      (obstructed : table.Obstructed dialect.member middle)

/-- A set of splices that cannot be made leaves the table as it was. -/
theorem unchanged_of_failed_install (obliging : ∀ world, table.Obliging world)
    {error : RuntimeError}
    (failed : install host dialect procedures members before = .error error after) :
    table.entries after.host = table.entries before.host ∧
      Obstructed table dialect procedures members (table.entries before.host) := by
  cases first : makePart host dialect.procedure .procedures procedures before with
  | error stop world =>
    have stopped : install host dialect procedures members before = .error stop world :=
      Steps.bind_error first
    rw [stopped] at failed
    cases failed
    obtain ⟨bodies, obstructed⟩ := obstructed_of_failed_makePart obliging first
    exact ⟨entries_of_failed_makePart obliging first, .first bodies obstructed⟩
  | ok part middle =>
    cases second : makePart host dialect.member (.members dialect) members middle with
    | ok other world =>
      rw [install_of_steps first second] at failed
      cases failed
    | error stop world =>
      have made := makePart_made table first
      obtain ⟨bodies, obstructed⟩ := obstructed_of_failed_makePart obliging second
      have reason : Obstructed table dialect procedures members (table.entries before.host) :=
        .second made (isSome_of_makePart first) bodies obstructed
      rw [← entries_of_failed_makePart obliging second] at made
      obtain ⟨left, finished, undone, back⟩ := uninstall_of_partMade obliging made
      rw [install_of_failed first second undone] at failed
      cases failed
      exact ⟨back, reason⟩

/-- **Splicing is all or nothing.**  On a host that refuses no renaming and no deletion, though it
may refuse interceptors at any names, a load whose splices cannot be made has changed nothing in the
table, whatever the definition commands of the dialect are called, and one of these commands is
missing, has its reserved name taken or is refused an interceptor; and if the splices are made,
exactly the commands that the load has bodies for are intercepted, and nothing has changed but at
their public and reserved names. -/
theorem install_all_or_nothing (obliging : ∀ world, table.Obliging world) (dialect : Dialect)
    (procedures members : Registry DefinitionKey) (before : World σ) :
    (∀ error after, install host dialect procedures members before = .error error after →
        table.entries after.host = table.entries before.host ∧
          Obstructed table dialect procedures members (table.entries before.host)) ∧
      ∀ set after, install host dialect procedures members before = .ok set after →
        set.Intercepts table dialect procedures members before after :=
  ⟨fun _ _ failed => unchanged_of_failed_install obliging failed,
    fun _ _ done => intercepts_of_install table done⟩

open Loads (oneProcedure oneMember)

/-- A dialect that calls the command which adds members by the reserved name of the one which
defines procedures. -/
def crossing : Dialect := { member := reservedName "proc" }

/-- Makes the splices of a load with a procedure and a member in this dialect, on a new interpreter
that takes no interceptors at some names. -/
def crossingResult (names : List String) : EStateM.Result RuntimeError (World Interpreter) SpliceSet :=
  install (Interpreter.host.barring names) crossing oneProcedure oneMember
    ⟨.ofVersion ⟨1, 0⟩, []⟩

def crossingMade (names : List String) : Bool :=
  match crossingResult names with
  | .ok _ _ => true
  | .error _ _ => false

/-- The splices are made if no interceptor is refused.  If the second one is, the first splice is
removed again and the command is back at its name. -/
theorem install_all_or_nothing_crossing :
    let before : World Interpreter := ⟨.ofVersion ⟨1, 0⟩, []⟩
    let table := Interpreter.commandTable.barring
    (∃ set after, crossingResult [] = .ok set after ∧
        set.Intercepts (table []) crossing oneProcedure oneMember before after) ∧
      ∃ error after, crossingResult [reservedName "proc"] = .error error after ∧
        (table [reservedName "proc"]).entries after.host =
          (table [reservedName "proc"]).entries before.host := by
  intro before table
  have obliging := Interpreter.commandTable.obliging_barring
  have accepted : crossingMade [] = true := by decide +kernel
  have refused : crossingMade [reservedName "proc"] = false := by decide +kernel
  unfold crossingMade at accepted refused
  constructor
  · obtain ⟨-, made⟩ :=
      install_all_or_nothing (obliging []) crossing oneProcedure oneMember before
    cases result : crossingResult [] with
    | ok set after => exact ⟨set, after, rfl, made set after result⟩
    | error error after =>
      rw [result] at accepted
      cases accepted
  · obtain ⟨unmade, -⟩ :=
      install_all_or_nothing (obliging [reservedName "proc"]) crossing oneProcedure oneMember before
    cases result : crossingResult [reservedName "proc"] with
    | ok set after =>
      rw [result] at refused
      cases refused
    | error error after => exact ⟨error, after, rfl, (unmade error after result).1⟩

end SpliceSet

end CompiledScript
