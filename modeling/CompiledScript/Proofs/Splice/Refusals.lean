import CompiledScript.Proofs.Rehearsal.Commands

/-!
# Splices on a host that refuses

A host may refuse any single change of its command table.  Making a splice takes two
changes, and a third if the second is refused; removing one takes two.  A call that is
refused half way leaves the table half changed, and later calls start from there.

What is never lost is the command itself, the original.  Either it stands at its own
name, and then the reserved name is free and no splice is installed; or it stands at
the reserved name, and then whatever stands at its own name, an interceptor or nothing,
is not the original.  So the only thing a removal can delete is an interceptor, and
since a splice is made only while the reserved name is free, no second splice is
installed before the first has moved the original back (`RefusingTable.Stands`).

Each call can end in a few ways, one for each change that can be refused, and these are
listed once (`Splice.Attempt`, `Splice.Removal`).  Every one of them preserves how the
original stands, hence so does any sequence of calls.
-/

set_option autoImplicit false

namespace CompiledScript

variable {σ ν κ : Type} {host : Host σ}

/-! ## Where the original stands -/

namespace RefusingTable

variable [DecidableEq ν] {table : RefusingTable host ν κ} {name : String} {original : κ}
  {entries : ν → Option κ} {installed : Nat} {before after : World σ}

/-- How the original of a command stands in a table, given the number of splices of the command
that are installed. -/
inductive Stands (table : RefusingTable host ν κ) (name : String) (original : κ)
    (entries : ν → Option κ) : (installed : Nat) → Prop where
  | home (shown : entries (table.place name) = some original)
      (free : entries (table.place (reservedName name)) = none) :
      Stands table name original entries 0
  | away {installed : Nat} (gone : entries (table.place name) ≠ some original)
      (moved : entries (table.place (reservedName name)) = some original)
      (few : installed ≤ 1) : Stands table name original entries installed

theorem Stands.apart (stands : table.Stands name original entries installed) :
    table.place name ≠ table.place (reservedName name) := by
  cases stands with
  | home shown free => exact Splice.ne_of_free shown free
  | away gone moved few =>
    intro same
    rw [same] at gone
    exact gone moved

/-- The original is away if its own name stands for nothing. -/
theorem Stands.vacated (gone : entries (table.place name) = none)
    (moved : entries (table.place (reservedName name)) = some original) (few : installed ≤ 1) :
    table.Stands name original entries installed := by
  apply Stands.away _ moved few
  rw [gone]
  exact (Option.some_ne_none original).symm

/-- Only the two places of the command matter. -/
theorem Stands.congr {later : ν → Option κ} (stands : table.Stands name original entries installed)
    (shown : later (table.place name) = entries (table.place name))
    (reserved : later (table.place (reservedName name)) =
      entries (table.place (reservedName name))) :
    table.Stands name original later installed := by
  cases stands with
  | home there free => exact .home (shown.trans there) (reserved.trans free)
  | away gone moved few => exact .away (shown ▸ gone) (reserved.trans moved) few

theorem Stands.few (stands : table.Stands name original entries installed) : installed ≤ 1 := by
  cases stands with
  | home _ _ => exact Nat.zero_le 1
  | away _ _ few => exact few

/-- The original is at the reserved name while a splice is installed. -/
theorem Stands.reserved (stands : table.Stands name original entries installed)
    (held : 0 < installed) :
    entries (table.place name) ≠ some original ∧
      entries (table.place (reservedName name)) = some original := by
  cases stands with
  | home _ _ => exact absurd held (Nat.lt_irrefl 0)
  | away gone moved _ => exact ⟨gone, moved⟩

theorem Stands.atOneName (stands : table.Stands name original entries installed) :
    (entries (table.place name) = some original ∧
        entries (table.place (reservedName name)) ≠ some original) ∨
      (entries (table.place name) ≠ some original ∧
        entries (table.place (reservedName name)) = some original) := by
  cases stands with
  | home shown free =>
    refine .inl ⟨shown, ?_⟩
    rw [free]
    exact (Option.some_ne_none original).symm
  | away gone moved _ => exact .inr ⟨gone, moved⟩

/-- The original can be moved to the reserved name only from its own. -/
theorem Stands.moved {moved : World σ}
    (stands : table.Stands name original (table.entries before.host) installed)
    (renamed : host.rename name (reservedName name) before = .ok () moved) :
    installed = 0 ∧ table.entries moved.host (table.place name) = none ∧
      table.entries moved.host (table.place (reservedName name)) = some original := by
  obtain ⟨entry, there, free, entries⟩ := table.rename_ok _ _ _ _ renamed
  have apart := stands.apart
  cases stands with
  | home shown _ =>
    rw [there] at shown
    rw [entries, Function.update_of_ne apart, Function.update_self, Function.update_self, shown]
    exact ⟨rfl, rfl, rfl⟩
  | away _ moved _ =>
    rw [free] at moved
    cases moved

/-- What is moved back from the reserved name is the original. -/
theorem home_of_back (apart : table.place name ≠ table.place (reservedName name))
    (reserved : table.entries before.host (table.place (reservedName name)) = some original)
    (back : host.rename (reservedName name) name before = .ok () after) :
    table.entries after.host (table.place name) = some original ∧
      table.entries after.host (table.place (reservedName name)) = none := by
  obtain ⟨entry, there, -, entries⟩ := table.rename_ok _ _ _ _ back
  rw [there] at reserved
  rw [entries, Function.update_self, Function.update_of_ne apart.symm, Function.update_self,
    reserved]
  exact ⟨rfl, rfl⟩

/-! ### Making a splice -/

/-- A splice is made only if none is installed. -/
theorem Stands.of_install {interceptor : Interceptor} {splice : Splice}
    (stands : table.Stands name original (table.entries before.host) installed)
    (other : table.standIn interceptor ≠ original)
    (done : Splice.install host name interceptor before = .ok splice after) :
    splice = ⟨name, reservedName name, .installed⟩ ∧
      table.Stands name original (table.entries after.host) (installed + 1) := by
  obtain ⟨same, -, -, _, renamed, bound⟩ := Splice.install_steps done
  obtain ⟨rfl, -, reserved⟩ := stands.moved renamed
  have entries := table.register_ok _ _ _ _ bound
  refine ⟨same, .away ?_ ?_ (Nat.le_refl 1)⟩
  · rw [entries, Function.update_self]
    exact fun same => other (Option.some.inj same)
  · rw [entries, Function.update_of_ne stands.apart.symm, reserved]

/-- An attempt that fails has left the original at its own name or at the reserved one. -/
theorem Stands.of_failed_install {interceptor : Interceptor} {error : RuntimeError}
    (stands : table.Stands name original (table.entries before.host) installed)
    (failed : Splice.install host name interceptor before = .error error after) :
    table.Stands name original (table.entries after.host) installed := by
  have attempt := Splice.attempt host name interceptor before
  rw [failed] at attempt
  cases attempt with
  | taken _ => exact stands
  | missing _ _ => exact stands
  | unmoved refused =>
    rw [table.rename_error _ _ _ _ _ refused]
    exact stands
  | movedBack renamed refused back =>
    obtain ⟨rfl, -, reserved⟩ := stands.moved renamed
    rw [← table.register_error _ _ _ _ _ refused] at reserved
    obtain ⟨shown, free⟩ := home_of_back stands.apart reserved back
    exact .home shown free
  | stranded renamed refused stuck =>
    obtain ⟨rfl, gone, reserved⟩ := stands.moved renamed
    rw [table.rename_error _ _ _ _ _ stuck, table.register_error _ _ _ _ _ refused]
    exact .vacated gone reserved (Nat.zero_le 1)

/-! ### Removing a splice -/

variable {splice : Splice}

/-- An interceptor is deleted in front of the original, which stays at the reserved name. -/
theorem Stands.deleted {between : World σ}
    (stands : table.Stands name original (table.entries before.host) installed)
    (held : 0 < installed) (deleted : host.delete name before = .ok () between) :
    installed = 1 ∧ table.entries between.host (table.place name) = none ∧
      table.entries between.host (table.place (reservedName name)) = some original := by
  obtain ⟨-, reserved⟩ := stands.reserved held
  have entries := table.delete_ok _ _ _ deleted
  rw [entries, Function.update_self, Function.update_of_ne stands.apart.symm, reserved]
  exact ⟨Nat.le_antisymm stands.few held, rfl, rfl⟩

/-- A splice in force is removed by moving the original back to its name. -/
theorem Stands.of_uninstall {left : Splice}
    (stands : table.Stands name original (table.entries before.host) installed)
    (held : 0 < installed) (own : splice.name = name ∧ splice.reserved = reservedName name)
    (inForce : splice.state = .installed)
    (done : splice.uninstall host before = .ok left after) :
    installed = 1 ∧ left = { splice with state := .uninstalled } ∧
      table.entries after.host (table.place name) = some original ∧
        table.entries after.host (table.place (reservedName name)) = none := by
  obtain ⟨rfl, same⟩ := own
  have removal := splice.removal host before
  rw [done] at removal
  cases removal with
  | idle uninstalled =>
    rw [inForce] at uninstalled
    cases uninstalled
  | removed _ deleted back =>
    obtain ⟨one, -, reserved⟩ := stands.deleted held deleted
    rw [same] at back
    exact ⟨one, rfl, home_of_back stands.apart reserved back⟩

/-- A removal that fails has deleted the interceptor at most. -/
theorem Stands.of_failed_uninstall {error : HostError}
    (stands : table.Stands name original (table.entries before.host) installed)
    (held : 0 < installed) (own : splice.name = name)
    (failed : splice.uninstall host before = .error error after) :
    table.Stands name original (table.entries after.host) installed := by
  subst own
  have removal := splice.removal host before
  rw [failed] at removal
  cases removal with
  | undeleted _ refused =>
    rw [table.delete_error _ _ _ _ refused]
    exact stands
  | unmoved _ deleted refused =>
    obtain ⟨one, gone, reserved⟩ := stands.deleted held deleted
    rw [table.rename_error _ _ _ _ _ refused]
    exact .vacated gone reserved (Nat.le_of_eq one)

end RefusingTable

/-! ## Sequences of calls -/

/-- What can be asked for about one command. -/
inductive SpliceRequest (σ : Type) where
  | install (interceptor : Interceptor)
  /-- Splices are numbered in the order in which they were made. -/
  | uninstall (number : Nat)
  /-- Something else happens on the host. -/
  | meanwhile (change : World σ → World σ)

/-- A host and the splices of one command that were made on it, oldest first.  Splices that were
removed stay in the list. -/
structure Splices (σ : Type) where
  world : World σ
  splices : List Splice

namespace Splices

/-- What becomes of a request about the command of a name. -/
def serve (host : Host σ) (name : String) (state : Splices σ) : SpliceRequest σ → Splices σ
  | .install interceptor =>
    match Splice.install host name interceptor state.world with
    | .ok splice after => ⟨after, state.splices ++ [splice]⟩
    | .error _ after => ⟨after, state.splices⟩
  | .uninstall number =>
    match state.splices[number]? with
    | none => state
    | some splice =>
      match splice.uninstall host state.world with
      | .ok left after => ⟨after, state.splices.set number left⟩
      | .error _ after => ⟨after, state.splices⟩
  | .meanwhile change => ⟨change state.world, state.splices⟩

/-- What becomes of requests that are served one after the other. -/
def serveAll (host : Host σ) (name : String) (start : Splices σ)
    (requests : List (SpliceRequest σ)) : Splices σ :=
  requests.foldl (serve host name) start

/-- The number of splices that are installed. -/
def installed (state : Splices σ) : Nat :=
  state.splices.countP fun splice => splice.state == .installed

end Splices

section Runs

variable [DecidableEq ν] {table : RefusingTable host ν κ} {name : String} {original : κ}
  {state : Splices σ}

/-- An interceptor can be told from the original, and what else happens leaves the two names of
the command alone. -/
def SpliceRequest.Fair (table : RefusingTable host ν κ) (name : String) (original : κ) :
    SpliceRequest σ → Prop
  | .install interceptor => table.standIn interceptor ≠ original
  | .uninstall _ => True
  | .meanwhile change =>
    ∀ world, ∀ spelling ∈ [name, reservedName name],
      table.entries (change world).host (table.place spelling) =
        table.entries world.host (table.place spelling)

namespace Splices

/-- The splices are splices of the command, and the original stands as their number says. -/
structure Sound (table : RefusingTable host ν κ) (name : String) (original : κ)
    (state : Splices σ) : Prop where
  own : ∀ splice ∈ state.splices, splice.name = name ∧ splice.reserved = reservedName name
  stands : table.Stands name original (table.entries state.world.host) state.installed

theorem installed_pos {splice : Splice} (listed : splice ∈ state.splices)
    (inForce : splice.state = .installed) : 0 < state.installed :=
  List.countP_pos_iff.mpr ⟨splice, listed, beq_iff_eq.mpr inForce⟩

/-- One splice less is installed where one that was installed has been removed. -/
theorem countP_set_uninstalled {splices : List Splice} {number : Nat} {splice : Splice}
    (there : splices[number]? = some splice) (inForce : splice.state = .installed)
    (left : Splice) (removed : left.state = .uninstalled) :
    ((splices.set number left).countP fun splice => splice.state == .installed) =
      (splices.countP fun splice => splice.state == .installed) - 1 := by
  obtain ⟨short, same⟩ := List.getElem?_eq_some_iff.mp there
  rw [List.countP_set short, same, inForce, removed]
  rfl

/-- A splice that was made is the only one that is installed. -/
theorem Sound.add {after : World σ} (sound : state.Sound table name original)
    (stands : table.Stands name original (table.entries after.host) (state.installed + 1)) :
    Sound table name original
      ⟨after, state.splices ++ [⟨name, reservedName name, .installed⟩]⟩ := by
  constructor
  · intro splice listed
    rcases List.mem_append.mp listed with early | late
    · exact sound.own splice early
    · rw [List.mem_singleton.mp late]
      exact ⟨rfl, rfl⟩
  · rw [installed, List.countP_append]
    exact stands

/-- The original is back once the only splice that was installed has been removed. -/
theorem Sound.clear {number : Nat} {splice : Splice} {after : World σ}
    (sound : state.Sound table name original) (there : state.splices[number]? = some splice)
    (inForce : splice.state = .installed) (one : state.installed = 1)
    (shown : table.entries after.host (table.place name) = some original)
    (free : table.entries after.host (table.place (reservedName name)) = none) :
    Sound table name original
      ⟨after, state.splices.set number { splice with state := .uninstalled }⟩ := by
  constructor
  · intro other found
    rcases List.mem_or_eq_of_mem_set found with early | rfl
    · exact sound.own other early
    · exact sound.own splice (List.mem_of_getElem? there)
  · rw [installed, countP_set_uninstalled there inForce _ rfl]
    change table.Stands name original _ (state.installed - 1)
    rw [one]
    exact .home shown free

/-- A request preserves how the original stands. -/
theorem Sound.serve (sound : state.Sound table name original) {request : SpliceRequest σ}
    (fair : request.Fair table name original) :
    (state.serve host name request).Sound table name original := by
  cases request with
  | install interceptor =>
    rw [Splices.serve]
    cases done : Splice.install host name interceptor state.world with
    | error error after => exact ⟨sound.own, sound.stands.of_failed_install done⟩
    | ok splice after =>
      obtain ⟨rfl, stands⟩ := sound.stands.of_install fair done
      exact sound.add stands
  | uninstall number =>
    rw [Splices.serve]
    cases there : state.splices[number]? with
    | none => exact sound
    | some splice =>
      have listed := List.mem_of_getElem? there
      have own := sound.own splice listed
      have removal := splice.removal host state.world
      dsimp only
      cases done : splice.uninstall host state.world with
      | error error after =>
        rw [done] at removal
        have inForce : splice.state = .installed := by cases removal <;> assumption
        have held := installed_pos listed inForce
        exact ⟨sound.own, sound.stands.of_failed_uninstall held own.1 done⟩
      | ok left after =>
        rw [done] at removal
        cases removal with
        | idle _ =>
          obtain ⟨short, same⟩ := List.getElem?_eq_some_iff.mp there
          have kept : state.splices.set number splice = state.splices := by
            rw [← same, List.set_getElem_self]
          dsimp only
          rw [kept]
          exact sound
        | removed inForce _ _ =>
          obtain ⟨one, -, shown, free⟩ :=
            sound.stands.of_uninstall (installed_pos listed inForce) own inForce done
          exact sound.clear there inForce one shown free
  | meanwhile change =>
    refine ⟨sound.own, sound.stands.congr ?_ ?_⟩
    · exact fair state.world name List.mem_cons_self
    · exact fair state.world (reservedName name) (List.mem_cons_of_mem _ List.mem_cons_self)

theorem Sound.serveAll {requests : List (SpliceRequest σ)}
    (sound : state.Sound table name original)
    (fair : ∀ request ∈ requests, request.Fair table name original) :
    (state.serveAll host name requests).Sound table name original := by
  induction requests generalizing state with
  | nil => exact sound
  | cons request requests ih =>
    obtain ⟨first, others⟩ := List.forall_mem_cons.mp fair
    exact ih (sound.serve first) others

/-- What may be relied on whatever is refused. -/
structure Safe (table : RefusingTable host ν κ) (name : String) (original : κ)
    (state : Splices σ) : Prop where
  /-- The original stands at exactly one of the two names. -/
  atOneName :
    (table.entries state.world.host (table.place name) = some original ∧
        table.entries state.world.host (table.place (reservedName name)) ≠ some original) ∨
      (table.entries state.world.host (table.place name) ≠ some original ∧
        table.entries state.world.host (table.place (reservedName name)) = some original)
  /-- While a splice is installed, that is the reserved name. -/
  reserved : ∀ splice ∈ state.splices, splice.state = .installed →
    table.entries state.world.host (table.place (reservedName name)) = some original
  atMostOne : state.installed ≤ 1
  /-- A removal that succeeds brings the original back and frees the reserved name. -/
  restored : ∀ splice ∈ state.splices, splice.state = .installed → ∀ left after,
    splice.uninstall host state.world = .ok left after →
      left.state = .uninstalled ∧
        table.entries after.host (table.place name) = some original ∧
          table.entries after.host (table.place (reservedName name)) = none

theorem Sound.safe (sound : state.Sound table name original) :
    state.Safe table name original where
  atOneName := sound.stands.atOneName
  reserved _ listed inForce := (sound.stands.reserved (installed_pos listed inForce)).2
  atMostOne := sound.stands.few
  restored splice listed inForce left after done := by
    obtain ⟨-, rfl, shown, free⟩ := sound.stands.of_uninstall (installed_pos listed inForce)
      (sound.own splice listed) inForce done
    exact ⟨rfl, shown, free⟩

/-- **The original is neither lost nor doubled, whatever the host refuses.**  If a command stands
at its name and the reserved name is free, then after any requests to splice it and to remove its
splices, of which the host may refuse any step, it stands at exactly one of the two names.  At
most one splice is installed, only while the command is at the reserved name, and removing it
brings the command back and frees the reserved name. -/
theorem serveAll_safe {world : World σ}
    (shown : table.entries world.host (table.place name) = some original)
    (free : table.entries world.host (table.place (reservedName name)) = none)
    (requests : List (SpliceRequest σ))
    (fair : ∀ request ∈ requests, request.Fair table name original) :
    (serveAll host name ⟨world, []⟩ requests).Safe table name original := by
  have sound : Sound table name original ⟨world, []⟩ :=
    ⟨fun _ listed => absurd listed List.not_mem_nil, .home shown free⟩
  exact (sound.serveAll fair).safe

/-! ### Refusals that come and go -/

/-- From now on a rehearsal host refuses something else. -/
def refusing (refusals : Rehearsal.Refusals) : SpliceRequest (Rehearsal Unit) :=
  .meanwhile fun world => { world with host := { world.host with refusals } }

/-- A splice for the registry of a number. -/
def spliceFor (registry : Nat) : SpliceRequest (Rehearsal Unit) :=
  .install ⟨reservedName "proc", .procedures, registry⟩

/-- A splice whose interceptor is refused, one that is made, one that comes too late, and a
removal that is refused half way and tried again. -/
def obstructed : List (SpliceRequest (Rehearsal Unit)) :=
  [refusing { register := ["proc"] }, spliceFor 0, refusing {}, spliceFor 1, spliceFor 2,
    refusing { rename := [reservedName "proc"] }, .uninstall 0, .uninstall 0]

/-- What a rehearsal host refuses is no part of its table, and its own commands are told from
interceptors. -/
theorem fair_obstructed : ∀ request ∈ obstructed,
    request.Fair (Rehearsal.refusingTable (pure "")) "proc" .native := by
  simp only [obstructed, List.forall_mem_cons]
  have changed : ∀ refusals, (refusing refusals).Fair (Rehearsal.refusingTable (pure ""))
      "proc" .native := fun refusals world spelling _ => rfl
  have told : ∀ registry, (spliceFor registry).Fair (Rehearsal.refusingTable (pure ""))
      "proc" .native := fun registry => Rehearsal.Entry.noConfusion
  exact ⟨changed _, told 0, changed _, told 1, told 2, changed _, trivial, trivial,
    fun _ none => absurd none List.not_mem_nil⟩

/-- One splice was made; it is still installed, although its interceptor is gone. -/
theorem serveAll_safe_obstructed :
    let world : World (Rehearsal Unit) := ⟨{ commands := [("proc", .native)], stage := () }, []⟩
    let table := Rehearsal.refusingTable (pure "" : Rehearsal.Action Unit String)
    let state := serveAll (Rehearsal.host (pure "")) "proc" ⟨world, []⟩ obstructed
    state.splices.map Splice.state = [.installed] ∧
      table.entries state.world.host (table.place "proc") = none ∧
        state.Safe table "proc" .native := by
  intro world table state
  refine ⟨by decide +kernel, by decide +kernel, ?_⟩
  exact serveAll_safe rfl (by decide +kernel) obstructed fair_obstructed

end Splices

end Runs

end CompiledScript
