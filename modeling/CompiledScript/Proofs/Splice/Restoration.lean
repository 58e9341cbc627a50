import CompiledScript.Proofs.Interpreter.Commands

/-!
# Replay leaves the definition commands as they were

A replay makes up to two splices, runs a block, and removes the splices in the
opposite order.  The names of one splice may be those of the other: a dialect may
call the command that adds members by the reserved name of the command that
defines procedures, and the second splice then moves the command that the first
has moved already.  So each removal is compared with the table right before its
own splice, at all places that either splice has touched, and the order of the
removals makes these comparisons fit together.

What the block does is left open, except that it leaves these places as it finds
them.  Then the table after the replay is the one the block has left, with the
definition commands back at their places.
-/

set_option autoImplicit false

namespace CompiledScript

variable {σ ν κ : Type} [DecidableEq ν] {host : Host σ}

namespace SpliceSet

/-! ## One splice of a set -/

/-- The places of the table that a splice touches. -/
def partPlaces (table : CommandTable host ν κ) : Option Installation → List ν
  | none => []
  | some installation =>
    [table.place installation.splice.name, table.place installation.splice.reserved]

/-- What making a splice has done to the table. -/
def Made (table : CommandTable host ν κ) (before after : World σ) : Option Installation → Prop
  | none => table.entries after.host = table.entries before.host
  | some ⟨splice, _⟩ =>
    splice.state = .installed ∧ ∃ entry standIn,
      table.entries before.host (table.place splice.name) = some entry ∧
        table.entries before.host (table.place splice.reserved) = none ∧
          table.entries after.host =
            Splice.spliced (table.entries before.host) (table.place splice.name)
              (table.place splice.reserved) entry standIn

theorem makePart_ok (table : CommandTable host ν κ) {name : String} {form : InterceptorForm}
    {registry : Registry DefinitionKey} {before after : World σ} {part : Option Installation}
    (done : makePart host name form registry before = .ok part after) :
    Made table before after part := by
  rcases makePart_entries table done with ⟨rfl, rfl⟩ | ⟨number, entry, rfl, there, free, entries⟩
  · rfl
  · exact ⟨rfl, entry, _, there, free, entries⟩

/-- Removing a splice succeeds and brings back the table from before it at the watched places,
if these are as they were after it. -/
theorem removePart_ok (table : CommandTable host ν κ) {before after now : World σ}
    {part : Option Installation} (made : Made table before after part) {watched : List ν}
    (inside : ∀ place ∈ partPlaces table part, place ∈ watched)
    (agree : ∀ place ∈ watched,
      table.entries now.host place = table.entries after.host place) :
    ∃ left finished, removePart host part now = .ok (left, .ok ()) finished ∧
      (∀ place ∈ watched,
        table.entries finished.host place = table.entries before.host place) ∧
      ∀ place, place ∉ partPlaces table part →
        table.entries finished.host place = table.entries now.host place := by
  cases part with
  | none =>
    refine ⟨none, now, rfl, fun place found => ?_, fun _ _ => rfl⟩
    rw [agree place found, made]
  | some installation =>
    obtain ⟨splice, registry⟩ := installation
    obtain ⟨installed, entry, standIn, there, free, entries⟩ := made
    have nameWatched : table.place splice.name ∈ watched := inside _ List.mem_cons_self
    have reservedWatched : table.place splice.reserved ∈ watched :=
      inside _ (List.mem_cons_of_mem _ List.mem_cons_self)
    have different : table.place splice.name ≠ table.place splice.reserved :=
      Splice.ne_of_free there free
    rw [entries] at agree
    have shown : table.entries now.host (table.place splice.name) = some standIn := by
      rw [agree _ nameWatched, Splice.spliced, Function.update_self]
    have reserved : table.entries now.host (table.place splice.reserved) = some entry := by
      rw [agree _ reservedWatched, Splice.spliced, Function.update_of_ne different.symm,
        Function.update_self]
    have emptied : (now.setRegistry registry .empty).host = now.host := rfl
    rw [← emptied] at shown reserved
    obtain ⟨finished, removed, back⟩ := Splice.unspliced_of_uninstall table.access installed
      different (Option.isSome_of_eq_some shown) (Option.isSome_of_eq_some reserved)
    change table.entries finished.host = Splice.unspliced (table.entries now.host)
      (table.place splice.name) (table.place splice.reserved) at back
    refine ⟨some ⟨{ splice with state := .uninstalled }, registry⟩, finished, ?_, ?_, ?_⟩
    · exact removePart_of_uninstall removed
    · rw [back]
      exact Splice.unspliced_of_agree there free reservedWatched agree
    · intro place outside
      rw [back]
      exact Splice.unspliced_of_ne (fun same => outside (same ▸ List.mem_cons_self))
        (fun same => outside (same ▸ List.mem_cons_of_mem _ List.mem_cons_self))

/-! ## Both splices -/

/-- The places of the table that the splices of a set touch: the public and the reserved names
of the commands that are spliced. -/
def places (table : CommandTable host ν κ) (set : SpliceSet) : List ν :=
  partPlaces table set.procedures ++ partPlaces table set.members

/-- A set of splices is made one splice after the other. -/
theorem install_made (table : CommandTable host ν κ) {dialect : Dialect}
    {procedures members : Registry DefinitionKey} {before after : World σ} {set : SpliceSet}
    (done : install host dialect procedures members before = .ok set after) :
    ∃ middle, Made table before middle set.procedures ∧ Made table middle after set.members := by
  obtain ⟨middle, first, second⟩ := install_steps done
  exact ⟨middle, makePart_ok table first, makePart_ok table second⟩

/-- Both splices are removed, and the table is as it was before them at their places, if it is
as they left it there. -/
theorem uninstall_restores (table : CommandTable host ν κ) {before middle after now : World σ}
    {set : SpliceSet} (first : Made table before middle set.procedures)
    (second : Made table middle after set.members)
    (agree : ∀ place ∈ set.places table,
      table.entries now.host place = table.entries after.host place) :
    ∃ left finished, uninstall host set now = .ok (left, .ok ()) finished ∧
      ∀ place, table.entries finished.host place =
        if place ∈ set.places table then table.entries before.host place
        else table.entries now.host place := by
  obtain ⟨members, between, membersRemoved, membersBack, membersKept⟩ :=
    removePart_ok table second (fun _ found => List.mem_append_right _ found) agree
  obtain ⟨procedures, finished, proceduresRemoved, proceduresBack, proceduresKept⟩ :=
    removePart_ok table first (fun _ found => List.mem_append_left _ found) membersBack
  refine ⟨⟨procedures, members⟩, finished, ?_, fun place => ?_⟩
  · exact (Steps.bind_ok membersRemoved).trans (Steps.bind_ok proceduresRemoved)
  · split
    · rename_i touched
      exact proceduresBack place touched
    · rename_i untouched
      rw [proceduresKept place fun found => untouched (List.mem_append_left _ found),
        membersKept place fun found => untouched (List.mem_append_right _ found)]

end SpliceSet

/-! ## Replays -/

/-- What a replay results in when its block results in `outcome`. -/
def replayed (outcome : Except HostError String) (world : World σ) :
    EStateM.Result RuntimeError (World σ) String :=
  match outcome with
  | .ok result => .ok result world
  | .error error => .error (.host error) world

/-- **A replay leaves the definition commands as it found them**, whatever the block does and
whether or not it fails.  The first part is about replays whose splices can be made: the table is
as the block has left it, with the spliced commands back at their places, and the outcome of the
block is the outcome of the replay.  The second part is about loads of bytes that are no
container, which end before anything is asked of the host but its version. -/
theorem replay_restores (table : CommandTable host ν κ) (before : World σ) :
    (∀ dialect container set start outcome finished,
      SpliceSet.install host dialect container.procedureBodies container.memberBodies before =
        .ok set start →
      (host.execute container.top).attempted (ε := RuntimeError) start = .ok outcome finished →
      (∀ place ∈ set.places table,
        table.entries finished.host place = table.entries start.host place) →
      ∃ after, replay host dialect container before = replayed outcome after ∧
        ∀ place, table.entries after.host place =
          if place ∈ set.places table then table.entries before.host place
          else table.entries finished.host place) ∧
    ∀ options bytes error,
      (Container.decode options.limits (host.runtimeVersion before.host)).outcome bytes =
        .error error →
      ∀ execute, load { host with execute } options bytes before =
        .error (.format error) before := by
  constructor
  · intro dialect container set start outcome finished installed ran kept
    obtain ⟨middle, first, second⟩ := SpliceSet.install_made table installed
    obtain ⟨left, after, removed, restored⟩ :=
      SpliceSet.uninstall_restores table first second kept
    refine ⟨after, ?_, restored⟩
    refine (Steps.bind_ok installed).trans ((Steps.bind_ok ran).trans ?_)
    refine (Steps.bind_ok (HostM.required_ok.mpr removed)).trans ?_
    cases outcome with
    | ok result => rfl
    | error error => rfl
  · intro options bytes error refused execute
    refine (Steps.bind_ok rfl).trans ?_
    simp only [refused]
    rfl

/-- An interpreter whose blocks leave a command behind and fail. -/
def failingHost : Host Interpreter :=
  { Interpreter.host with
    execute := fun _ => do
      Interpreter.update (Interpreter.setCommand "::left" (.builtin .emit))
      Interpreter.fail "boom" }

/-- A container with one procedure and one class member. -/
def crossedContainer : Container where
  header := ⟨containerMagic, formatVersion, ⟨1, 0⟩, 0, 0, 0, 0, 0, 0, 0⟩
  top := Block.empty
  procedures := [⟨"::f", "::", "x", Block.empty⟩]
  classes := [⟨"::c"⟩]
  methods := [⟨"::c", .method, "m", "", Block.empty⟩]

/-- The commands of an interpreter whose blocks fail. -/
def failingTable : CommandTable failingHost String CommandEntry :=
  Interpreter.commandTable.withExecute failingHost.execute

/-- The places of the table that the splices for this container touch. -/
def crossedPlaces : Option (List String) :=
  match SpliceSet.install failingHost { member := reservedName "proc" }
    crossedContainer.procedureBodies crossedContainer.memberBodies ⟨.ofVersion ⟨1, 0⟩, []⟩ with
  | .ok set _ => some (set.places failingTable)
  | .error _ _ => none

/-- The second splice is made of the command that the first has moved. -/
theorem replay_restores_crossed :
    let before : World Interpreter := ⟨.ofVersion ⟨1, 0⟩, []⟩
    ∃ after, replay failingHost { member := reservedName "proc" } crossedContainer before =
        .error (.host ⟨"boom"⟩) after ∧
      (∀ place ∈ ["::proc", "::__tbc_original::proc", "::__tbc_original::__tbc_original::proc"],
        failingTable.entries after.host place = failingTable.entries before.host place) ∧
      failingTable.entries after.host "::left" = some (.builtin .emit) ∧
      load failingHost {} [0] before = .error (.format .fieldCutShort) before := by
  intro before
  have installed : crossedPlaces = some ["::proc", "::__tbc_original::proc",
      "::__tbc_original::proc", "::__tbc_original::__tbc_original::proc"] := by decide +kernel
  unfold crossedPlaces at installed
  obtain ⟨restored, refused⟩ := replay_restores failingTable before
  cases made : SpliceSet.install failingHost { member := reservedName "proc" }
      crossedContainer.procedureBodies crossedContainer.memberBodies ⟨.ofVersion ⟨1, 0⟩, []⟩ with
  | error error failed =>
    rw [made] at installed
    cases installed
  | ok set start =>
    rw [made] at installed
    have places := Option.some.inj installed
    have bound : failingTable.entries (start.host.setCommand "::left" (.builtin .emit)) =
        Function.update (failingTable.entries start.host) "::left" (some (.builtin .emit)) :=
      Table.lookup_put _ _ _
    have kept : ∀ place ∈ set.places failingTable,
        failingTable.entries (start.host.setCommand "::left" (.builtin .emit)) place =
          failingTable.entries start.host place := by
      intro place found
      rw [bound, Function.update_of_ne]
      rintro rfl
      rw [places] at found
      exact absurd found (by decide)
    obtain ⟨after, outcome, entries⟩ := restored _ _ set start (.error ⟨"boom"⟩)
      { start with host := start.host.setCommand "::left" (.builtin .emit) } made rfl kept
    refine ⟨after, outcome, fun place found => ?_, ?_, ?_⟩
    · rw [entries place, if_pos (by rw [places]; simpa using found)]
    · rw [entries, if_neg (by rw [places]; decide)]
      exact congrFun bound "::left" |>.trans (Function.update_self ..)
    · exact refused {} [0] .fieldCutShort rfl failingHost.execute

end CompiledScript
