import CompiledScript.Proofs.Interpreter.Commands
import CompiledScript.Proofs.Splice.InForce
import Mathlib.Data.List.Nodup

/-!
# Several loads on one host

Loads on one host make and remove their splices in any order.  A load has splices for
one definition command or for both, and a load that gets the first command and is
refused the second has to give the first one back without disturbing the load that
holds the other.

What stands at the places of the definition commands is determined by who holds them.
The holder of a command is told by the number of the registry that its interceptor
asks, and the numbers of all holders are read off the splices that are installed
(`Loads.holders`).  There is at most one for each command.  Without a holder the
command is at its public place and the reserved place is free; with one it is at the
reserved place and the interceptor of the holder is in its stead (`CommandAccess.Held`).
Everything else is as it was in the beginning.

This is what making and removing a single splice preserve, hence what a whole set
preserves, also where its second splice is refused, and hence what holds after any
requests.  A table with the same holders is the same table, so a refused load has
changed nothing and without holders the table is the one from the beginning.
-/

set_option autoImplicit false

namespace CompiledScript

variable {σ ν κ : Type} [DecidableEq ν] {host : Host σ}

/-! ## Loads that come and go -/

/-- What can be asked for on behalf of loads: splices for the bodies of a new load, or the removal
of the splices of an earlier one. -/
inductive LoadRequest where
  | install (procedures members : Registry DefinitionKey)
  /-- Loads are numbered in the order in which their splices were made. -/
  | uninstall (number : Nat)

/-- A host and the splices that loads have made on it, oldest first.  Splices that were removed
stay in the list. -/
structure Loads (σ : Type) where
  world : World σ
  sets : List SpliceSet

/-- What becomes of a request. -/
def Loads.serve (host : Host σ) (dialect : Dialect) (loads : Loads σ) : LoadRequest → Loads σ
  | .install procedures members =>
    match SpliceSet.install host dialect procedures members loads.world with
    | .ok set after => ⟨after, loads.sets ++ [set]⟩
    | .error _ after => ⟨after, loads.sets⟩
  | .uninstall number =>
    match loads.sets[number]? with
    | none => loads
    | some set =>
      match SpliceSet.uninstall host set loads.world with
      | .ok (left, _) after => ⟨after, loads.sets.set number left⟩
      | .error _ after => ⟨after, loads.sets⟩

/-- What becomes of requests that are served one after the other. -/
def Loads.serveAll (host : Host σ) (dialect : Dialect) (start : Loads σ)
    (requests : List LoadRequest) : Loads σ :=
  requests.foldl (serve host dialect) start

/-- Whether the splice of a command is installed. -/
def SpliceSet.holds (set : SpliceSet) (isMember : Bool) : Bool :=
  (set.part isMember).any Installation.isInstalled

/-- The number of the registry that is asked for the bodies of a command, if the set holds the
command. -/
def SpliceSet.number? (set : SpliceSet) (isMember : Bool) : Option Nat :=
  ((set.part isMember).filter Installation.isInstalled).map Installation.registry

/-- The numbers of those that hold a command. -/
def Loads.holders (loads : Loads σ) (isMember : Bool) : List Nat :=
  loads.sets.filterMap fun set => set.number? isMember

/-- A splice that is there, if it is, is for the command of the name. -/
def SpliceSet.PartFor (part : Option Installation) (name : String) : Prop :=
  ∀ installation, part = some installation →
    installation.splice.name = name ∧ installation.splice.reserved = reservedName name

/-- The splices of a set are for the definition commands of the dialect. -/
def SpliceSet.Fits (set : SpliceSet) (dialect : Dialect) : Prop :=
  ∀ isMember, PartFor (set.part isMember) (dialect.command isMember)

namespace SpliceSet

variable {set : SpliceSet} {isMember : Bool} {installation : Installation}

theorem isSome_number? (set : SpliceSet) (isMember : Bool) :
    (set.number? isMember).isSome = set.holds isMember := by
  rw [number?, holds]
  cases set.part isMember with
  | none => rfl
  | some installation => cases shown : installation.isInstalled <;> simp [shown]

theorem number?_of_part (there : set.part isMember = some installation)
    (installed : installation.isInstalled = true) :
    set.number? isMember = some installation.registry := by
  simp [number?, there, installed]

theorem number?_eq_none : set.number? isMember = none ↔ set.holds isMember = false := by
  rw [← isSome_number?, Option.isSome_eq_false_iff, Option.isNone_iff_eq_none]

theorem isInstalled_eq (set : SpliceSet) :
    set.isInstalled = (set.holds false || set.holds true) := rfl

end SpliceSet

/-! ## Tables and holders -/

namespace CommandAccess

/-- How a definition command stands in a table, given the numbers of those that hold it. -/
inductive Held (access : CommandAccess host ν κ) (name : String) (form : InterceptorForm)
    (original : Option κ) (entries : ν → Option κ) : List Nat → Prop
  | vacant (shown : entries (access.place name) = original)
      (free : entries (access.place (reservedName name)) = none) :
      Held access name form original entries []
  | taken (number : Nat)
      (shown : entries (access.place name) =
        some (access.standIn ⟨reservedName name, form, number⟩))
      (moved : entries (access.place (reservedName name)) = original) :
      Held access name form original entries [number]

/-- The public and the reserved places of the definition commands. -/
def definitionPlaces (access : CommandAccess host ν κ) (dialect : Dialect) : List ν :=
  [access.place dialect.procedure, access.place (reservedName dialect.procedure),
    access.place dialect.member, access.place (reservedName dialect.member)]

/-- A table without splices: the definition commands are at their public places, the reserved
places are free, and these four places are different from each other. -/
structure Unspliced (access : CommandAccess host ν κ) (dialect : Dialect)
    (initial : ν → Option κ) : Prop where
  distinct : (access.definitionPlaces dialect).Nodup
  bound : ∀ isMember, (initial (access.place (dialect.command isMember))).isSome
  free : ∀ isMember, initial (access.place (reservedName (dialect.command isMember))) = none

/-- A table that has become of an initial one, given the numbers of those that hold the
definition commands. -/
structure Arranged (access : CommandAccess host ν κ) (dialect : Dialect) (initial : ν → Option κ)
    (holders : Bool → List Nat) (entries : ν → Option κ) : Prop where
  held : ∀ isMember, access.Held (dialect.command isMember) (dialect.form isMember)
    (initial (access.place (dialect.command isMember))) entries (holders isMember)
  elsewhere : ∀ place, place ∉ access.definitionPlaces dialect → entries place = initial place

variable {access : CommandAccess host ν κ} {dialect : Dialect}
  {initial entries later : ν → Option κ} {holders : Bool → List Nat}

theorem command_mem_places (isMember : Bool) :
    access.place (dialect.command isMember) ∈ access.definitionPlaces dialect := by
  cases isMember <;> simp [definitionPlaces, Dialect.command]

theorem reserved_mem_places (isMember : Bool) :
    access.place (reservedName (dialect.command isMember)) ∈ access.definitionPlaces dialect := by
  cases isMember <;> simp [definitionPlaces, Dialect.command]

/-- The places of a command are different from each other and from those of the other command. -/
theorem places_apart (distinct : (access.definitionPlaces dialect).Nodup) (isMember : Bool) :
    access.place (dialect.command isMember) ≠
        access.place (reservedName (dialect.command isMember)) ∧
      (∀ place ∈ [access.place (dialect.command !isMember),
          access.place (reservedName (dialect.command !isMember))],
        place ≠ access.place (dialect.command isMember) ∧
          place ≠ access.place (reservedName (dialect.command isMember))) := by
  simp only [definitionPlaces, List.nodup_cons, List.mem_cons, List.not_mem_nil, not_or] at distinct
  cases isMember with
  | false => simp only [Dialect.command, Bool.not_false, List.mem_cons]; grind
  | true => simp only [Dialect.command, Bool.not_true, List.mem_cons]; grind

theorem Unspliced.arranged (start : access.Unspliced dialect initial) :
    access.Arranged dialect initial (fun _ => []) initial where
  held isMember := .vacant rfl (start.free isMember)
  elsewhere _ _ := rfl

/-- The holders and the initial table determine the table. -/
theorem Arranged.unique (first : access.Arranged dialect initial holders entries)
    (second : access.Arranged dialect initial holders later) : entries = later := by
  have commands : ∀ isMember,
      entries (access.place (dialect.command isMember)) =
          later (access.place (dialect.command isMember)) ∧
        entries (access.place (reservedName (dialect.command isMember))) =
          later (access.place (reservedName (dialect.command isMember))) := by
    intro isMember
    have here := first.held isMember
    have there := second.held isMember
    cases numbers : holders isMember with
    | nil =>
      rw [numbers] at here there
      cases here with
      | vacant shown free =>
        cases there with
        | vacant shown' free' => exact ⟨shown.trans shown'.symm, free.trans free'.symm⟩
    | cons number others =>
      rw [numbers] at here there
      cases here with
      | taken number shown moved =>
        cases there with
        | taken number shown' moved' => exact ⟨shown.trans shown'.symm, moved.trans moved'.symm⟩
  funext place
  by_cases among : place ∈ access.definitionPlaces dialect
  · simp only [definitionPlaces, List.mem_cons, List.not_mem_nil, or_false] at among
    rcases among with rfl | rfl | rfl | rfl
    · exact (commands false).1
    · exact (commands false).2
    · exact (commands true).1
    · exact (commands true).2
  · rw [first.elsewhere place among, second.elsewhere place among]

/-- Only the places of one command have changed, and it has got another holder or none. -/
theorem Arranged.turn (arranged : access.Arranged dialect initial holders entries)
    (start : access.Unspliced dialect initial) {isMember : Bool} {numbers : List Nat}
    (held : access.Held (dialect.command isMember) (dialect.form isMember)
      (initial (access.place (dialect.command isMember))) later numbers)
    (kept : ∀ place, place ≠ access.place (dialect.command isMember) →
      place ≠ access.place (reservedName (dialect.command isMember)) →
        later place = entries place) :
    access.Arranged dialect initial (Function.update holders isMember numbers) later where
  held other := by
    by_cases same : other = isMember
    · rw [same, Function.update_self]
      exact held
    · rw [Function.update_of_ne same]
      obtain rfl : other = !isMember := Bool.eq_not.mpr same
      obtain ⟨-, apart⟩ := places_apart start.distinct isMember
      have shown := apart _ (List.mem_cons_self)
      have reserved := apart _ (List.mem_cons_of_mem _ List.mem_cons_self)
      have stood := arranged.held (!isMember)
      cases numbers : holders (!isMember) with
      | nil =>
        rw [numbers] at stood
        cases stood with
        | vacant there free =>
          apply Held.vacant
          · rw [kept _ shown.1 shown.2, there]
          · rw [kept _ reserved.1 reserved.2, free]
      | cons number others =>
        rw [numbers] at stood
        cases stood with
        | taken number there moved =>
          apply Held.taken
          · rw [kept _ shown.1 shown.2, there]
          · rw [kept _ reserved.1 reserved.2, moved]
  elsewhere place outside := by
    rw [kept, arranged.elsewhere place outside]
    · rintro rfl
      exact outside (command_mem_places isMember)
    · rintro rfl
      exact outside (reserved_mem_places isMember)

end CommandAccess

/-! ## Making and removing splices -/

namespace SpliceSet

open CommandAccess

variable {access : CommandAccess host ν κ} {dialect : Dialect} {initial : ν → Option κ}
  {holders : Bool → List Nat} {before after : World σ}
  {registry : Registry DefinitionKey} {part : Option Installation}

/-- A command that nobody holds can be spliced. -/
theorem makePart_arranged (isMember : Bool) (start : access.Unspliced dialect initial)
    (arranged : access.Arranged dialect initial holders (access.entries before.host))
    (vacant : registry.isEmpty = false → holders isMember = []) :
    ∃ part after,
      makePart host (dialect.command isMember) (dialect.form isMember) registry before =
        .ok part after ∧
      part.any Installation.isInstalled = !registry.isEmpty ∧
      PartFor part (dialect.command isMember) ∧
      access.Arranged dialect initial
        (Function.update holders isMember (holders isMember ++
          ((part.filter Installation.isInstalled).map Installation.registry).toList))
        (access.entries after.host) := by
  rw [makePart]
  cases bodies : registry.isEmpty with
  | true =>
    refine ⟨none, before, rfl, rfl, ?_, ?_⟩
    · intro installation missing
      cases missing
    · rw [Option.filter_none, Option.map_none, Option.toList_none, List.append_nil,
        Function.update_eq_self]
      exact arranged
  | false =>
    have stood := arranged.held isMember
    rw [vacant bodies] at stood
    cases stood with
    | vacant shown free =>
      have there := start.bound isMember
      rw [← shown] at there
      obtain ⟨after, made⟩ : ∃ after, Splice.install host (dialect.command isMember)
          ⟨reservedName (dialect.command isMember), dialect.form isMember,
            before.registries.length⟩ (before.addRegistry registry) =
            .ok ⟨dialect.command isMember, reservedName (dialect.command isMember), .installed⟩
              after :=
        Splice.install_of_free access _ there free
      obtain ⟨-, entry, stood, -, entries⟩ := Splice.spliced_of_install access made
      change access.entries before.host _ = some entry at stood
      obtain ⟨different, -⟩ := places_apart start.distinct isMember
      refine ⟨some ⟨⟨dialect.command isMember, reservedName (dialect.command isMember),
        .installed⟩, before.registries.length⟩, after, ?_, rfl, ?_, ?_⟩
      · refine Steps.bind_ok ((Steps.bind_ok rfl).trans ((Steps.bind_ok rfl).trans ?_))
        exact Steps.bind_ok made
      · intro installation same
        cases same
        exact ⟨rfl, rfl⟩
      · rw [vacant bodies]
        apply arranged.turn start
        · apply Held.taken
          · rw [entries, Splice.spliced, Function.update_self]
          · rw [entries, Splice.spliced, Function.update_of_ne different.symm,
              Function.update_self, ← stood, shown]
        · intro place notShown notReserved
          rw [entries, Splice.spliced, Function.update_of_ne notShown,
            Function.update_of_ne notReserved]
          rfl

/-- A command that is held is refused, and the table stays. -/
theorem makePart_taken (isMember : Bool) (start : access.Unspliced dialect initial)
    (arranged : access.Arranged dialect initial holders (access.entries before.host))
    (bodies : registry.isEmpty = false) (taken : holders isMember ≠ []) :
    makePart host (dialect.command isMember) (dialect.form isMember) registry before =
      .error (.splice (.alreadyIntercepted (dialect.command isMember)))
        (before.addRegistry registry) := by
  have stood := arranged.held isMember
  cases numbers : holders isMember with
  | nil => exact (taken numbers).elim
  | cons number others =>
    rw [numbers] at stood
    cases stood with
    | taken number shown moved =>
      have bound := start.bound isMember
      rw [← moved] at bound
      have refused : Splice.install host (dialect.command isMember)
          ⟨reservedName (dialect.command isMember), dialect.form isMember,
            before.registries.length⟩ (before.addRegistry registry) =
            .error (.splice (.alreadyIntercepted (dialect.command isMember)))
              (before.addRegistry registry) :=
        Splice.install_taken access _ bound
      rw [makePart, bodies]
      refine Steps.bind_error ((Steps.bind_ok rfl).trans ((Steps.bind_ok rfl).trans ?_))
      exact Steps.bind_error refused

/-- Removing a splice gives the command back if the splice is installed, and does nothing
otherwise. -/
theorem removePart_arranged (isMember : Bool) (start : access.Unspliced dialect initial)
    (arranged : access.Arranged dialect initial holders (access.entries before.host))
    (fits : PartFor part (dialect.command isMember))
    (holds : part.any Installation.isInstalled → holders isMember ≠ []) :
    ∃ left after, removePart host part before = .ok (left, .ok ()) after ∧
      left.any Installation.isInstalled = false ∧ PartFor left (dialect.command isMember) ∧
      access.Arranged dialect initial
        (Function.update holders isMember
          (bif part.any Installation.isInstalled then [] else holders isMember))
        (access.entries after.host) := by
  cases part with
  | none =>
    refine ⟨none, before, rfl, rfl, fits, ?_⟩
    rw [Option.any_none, cond_false, Function.update_eq_self]
    exact arranged
  | some installation =>
    obtain ⟨⟨name, reserved, state⟩, number⟩ := installation
    obtain ⟨rfl, rfl⟩ := fits _ rfl
    cases state with
    | uninstalled =>
      refine ⟨_, _, removePart_of_uninstall rfl, rfl, fits, ?_⟩
      change access.Arranged dialect initial (Function.update holders isMember (holders isMember)) _
      rw [Function.update_eq_self]
      exact arranged
    | installed =>
      have stood := arranged.held isMember
      cases numbers : holders isMember with
      | nil => exact (holds rfl numbers).elim
      | cons first others =>
        rw [numbers] at stood
        cases stood with
        | taken first shown moved =>
          obtain ⟨different, -⟩ := places_apart start.distinct isMember
          have bound := start.bound isMember
          rw [← moved] at bound
          obtain ⟨after, removed, entries⟩ : ∃ after, Splice.uninstall host
              ⟨dialect.command isMember, reservedName (dialect.command isMember), .installed⟩
              (before.setRegistry number .empty) = .ok
                ⟨dialect.command isMember, reservedName (dialect.command isMember), .uninstalled⟩
                after ∧
              access.entries after.host = Splice.unspliced (access.entries before.host)
                (access.place (dialect.command isMember))
                (access.place (reservedName (dialect.command isMember))) :=
            Splice.unspliced_of_uninstall access rfl different (Option.isSome_of_eq_some shown)
              bound
          refine ⟨_, after, removePart_of_uninstall removed, rfl, ?_, ?_⟩
          · intro installation same
            cases same
            exact ⟨rfl, rfl⟩
          · apply arranged.turn start
            · apply Held.vacant
              · rw [entries, Splice.unspliced, Function.update_self, moved]
              · rw [entries, Splice.unspliced, Function.update_of_ne different.symm,
                  Function.update_self]
            · intro place notShown notReserved
              rw [entries, Splice.unspliced_of_ne notShown notReserved]

/-! ## Whole sets -/

/-- Removing a set gives back the commands that it holds. -/
theorem uninstall_arranged (start : access.Unspliced dialect initial)
    (arranged : access.Arranged dialect initial holders (access.entries before.host))
    {set : SpliceSet} (fits : set.Fits dialect)
    (holds : ∀ isMember, set.holds isMember = true → holders isMember ≠ []) :
    ∃ left after, uninstall host set before = .ok (left, .ok ()) after ∧
      left.Fits dialect ∧ (∀ isMember, left.holds isMember = false) ∧
      access.Arranged dialect initial
        (fun isMember => bif set.holds isMember then [] else holders isMember)
        (access.entries after.host) := by
  obtain ⟨members, middle, first, emptied, membersFit, between⟩ :=
    removePart_arranged true start arranged (fits true) (holds true)
  obtain ⟨procedures, after, second, cleared, proceduresFit, finished⟩ :=
    removePart_arranged false start between (fits false) (holds false)
  refine ⟨⟨procedures, members⟩, after, ?_, ?_, ?_, ?_⟩
  · exact (Steps.bind_ok first).trans (Steps.bind_ok second)
  · intro isMember
    cases isMember with
    | false => exact proceduresFit
    | true => exact membersFit
  · intro isMember
    cases isMember with
    | false => exact cleared
    | true => exact emptied
  · convert finished using 1
    funext isMember
    cases isMember <;> rfl

/-- Removing the first splice of a set takes back what making it has done. -/
theorem uninstall_first (start : access.Unspliced dialect initial)
    (vacant : holds ⟨part, none⟩ false = true → holders false = [])
    (fits : PartFor part dialect.procedure)
    (arranged : access.Arranged dialect initial
      (Function.update holders false (holders false ++ (number? ⟨part, none⟩ false).toList))
      (access.entries before.host)) :
    ∃ left after, uninstall host ⟨part, none⟩ before = .ok (left, .ok ()) after ∧
      access.Arranged dialect initial holders (access.entries after.host) := by
  have setFits : Fits ⟨part, none⟩ dialect := by
    intro isMember
    cases isMember with
    | false => exact fits
    | true =>
      intro installation missing
      cases missing
  have held : ∀ isMember, holds ⟨part, none⟩ isMember = true →
      Function.update holders false (holders false ++ (number? ⟨part, none⟩ false).toList)
        isMember ≠ [] := by
    intro isMember holding
    cases isMember with
    | false =>
      rw [← isSome_number?] at holding
      obtain ⟨number, numbered⟩ := Option.isSome_iff_exists.mp holding
      rw [Function.update_self, numbered]
      simp
    | true => cases holding
  obtain ⟨left, after, undone, -, -, finished⟩ :=
    uninstall_arranged start arranged setFits held
  refine ⟨left, after, undone, ?_⟩
  convert finished using 1
  funext isMember
  cases isMember with
  | false =>
    cases holding : holds ⟨part, none⟩ false with
    | false =>
      rw [cond_false, Function.update_self, number?_eq_none.mpr holding, Option.toList_none,
        List.append_nil]
    | true => rw [cond_true, vacant holding]
  | true => rfl

variable {procedures members : Registry DefinitionKey}

/-- A load whose commands nobody holds gets its splices. -/
theorem install_arranged (start : access.Unspliced dialect initial)
    (arranged : access.Arranged dialect initial holders (access.entries before.host))
    (vacant : ∀ isMember, (bif isMember then members else procedures).isEmpty = false →
      holders isMember = []) :
    ∃ set after, install host dialect procedures members before = .ok set after ∧
      set.Fits dialect ∧
      (∀ isMember, set.holds isMember = !(bif isMember then members else procedures).isEmpty) ∧
      access.Arranged dialect initial
        (fun isMember => holders isMember ++ (set.number? isMember).toList)
        (access.entries after.host) := by
  obtain ⟨early, middle, first, earlyHolds, earlyFits, between⟩ :=
    makePart_arranged false start arranged (vacant false)
  have vacantMember : members.isEmpty = false → Function.update holders false (holders false ++
      ((early.filter Installation.isInstalled).map Installation.registry).toList) true = [] := by
    intro bodies
    rw [Function.update_of_ne (by decide)]
    exact vacant true bodies
  obtain ⟨late, after, second, lateHolds, lateFits, finished⟩ :=
    makePart_arranged true start between vacantMember
  refine ⟨⟨early, late⟩, after, install_of_steps first second, ?_, ?_, ?_⟩
  · intro isMember
    cases isMember with
    | false => exact earlyFits
    | true => exact lateFits
  · intro isMember
    cases isMember with
    | false => exact earlyHolds
    | true => exact lateHolds
  · convert finished using 1
    funext isMember
    cases isMember <;> rfl

/-- A load that needs a command that is held is refused, and what it has been given before is
taken back. -/
theorem install_refused (start : access.Unspliced dialect initial)
    (arranged : access.Arranged dialect initial holders (access.entries before.host))
    (taken : ∃ isMember, (bif isMember then members else procedures).isEmpty = false ∧
      holders isMember ≠ []) :
    ∃ isMember after, install host dialect procedures members before =
        .error (.splice (.alreadyIntercepted (dialect.command isMember))) after ∧
      (bif isMember then members else procedures).isEmpty = false ∧ holders isMember ≠ [] ∧
      access.Arranged dialect initial holders (access.entries after.host) := by
  by_cases vacant : procedures.isEmpty = false → holders false = []
  · obtain ⟨bodies, held⟩ : members.isEmpty = false ∧ holders true ≠ [] := by
      obtain ⟨isMember, bodies, held⟩ := taken
      cases isMember with
      | false => exact (held (vacant bodies)).elim
      | true => exact ⟨bodies, held⟩
    obtain ⟨part, middle, first, spliced, fits, between⟩ :=
      makePart_arranged false start arranged vacant
    have second : makePart host dialect.member (.members dialect) members middle =
        .error (.splice (.alreadyIntercepted dialect.member)) (middle.addRegistry members) := by
      apply makePart_taken true start between bodies
      rw [Function.update_of_ne (by decide)]
      exact held
    have vacated : SpliceSet.holds ⟨part, none⟩ false = true → holders false = [] := by
      intro holding
      change part.any Installation.isInstalled = true at holding
      rw [spliced, Bool.not_eq_true'] at holding
      exact vacant holding
    have stood : access.Arranged dialect initial
        (Function.update holders false
          (holders false ++ (SpliceSet.number? ⟨part, none⟩ false).toList))
        (access.entries (middle.addRegistry members).host) := between
    obtain ⟨left, after, undone, finished⟩ := uninstall_first start vacated fits stood
    exact ⟨true, after, install_of_failed first second undone, bodies, held, finished⟩
  · obtain ⟨bodies, held⟩ := Classical.not_imp.mp vacant
    have refused : makePart host dialect.procedure .procedures procedures before =
        .error (.splice (.alreadyIntercepted dialect.procedure)) (before.addRegistry procedures) :=
      makePart_taken false start arranged bodies held
    exact ⟨false, _, Steps.bind_error refused, bodies, held, arranged⟩

end SpliceSet

/-! ## After any requests -/

/-- Replacing an item of which nothing is kept, where at most one thing is kept of all. -/
theorem filterMap_set_of_few {α β : Type} {keep : α → Option β} {items : List α} {index : Nat}
    {old new : α} (there : items[index]? = some old) (few : (items.filterMap keep).length ≤ 1)
    (gone : keep new = none) :
    (items.set index new).filterMap keep =
      bif (keep old).isSome then [] else items.filterMap keep := by
  induction items generalizing index with
  | nil => cases there
  | cons first rest ih =>
    cases index with
    | zero =>
      cases there
      rw [List.set_cons_zero, List.filterMap_cons_none gone]
      cases kept : keep old with
      | none => rw [List.filterMap_cons_none kept]; rfl
      | some value =>
        rw [List.filterMap_cons_some kept, List.length_cons] at few
        exact List.length_eq_zero_iff.mp (by omega)
    | succ index =>
      rw [List.getElem?_cons_succ] at there
      rw [List.set_cons_succ]
      cases kept : keep first with
      | none =>
        rw [List.filterMap_cons_none kept] at few ⊢
        rw [List.filterMap_cons_none kept]
        exact ih there few
      | some value =>
        rw [List.filterMap_cons_some kept, List.length_cons] at few
        have nothing : rest.filterMap keep = [] := List.length_eq_zero_iff.mp (by omega)
        have unkept : keep old = none :=
          List.filterMap_eq_nil_iff.mp nothing old (List.mem_of_getElem? there)
        rw [List.filterMap_cons_some kept, List.filterMap_cons_some kept, nothing,
          ih there (by omega), unkept, nothing]
        rfl

namespace Loads

open CommandAccess SpliceSet

/-- The splices of all loads are for the definition commands, and the table is as the holders
say. -/
structure Sound (access : CommandAccess host ν κ) (dialect : Dialect) (initial : ν → Option κ)
    (loads : Loads σ) : Prop where
  fits : ∀ set ∈ loads.sets, set.Fits dialect
  arranged : access.Arranged dialect initial loads.holders (access.entries loads.world.host)

variable {access : CommandAccess host ν κ} {dialect : Dialect} {initial : ν → Option κ}
  {loads : Loads σ} {set : SpliceSet}

theorem Sound.few (sound : loads.Sound access dialect initial) (isMember : Bool) :
    (loads.holders isMember).length ≤ 1 := by
  have held := sound.arranged.held isMember
  cases numbers : loads.holders isMember with
  | nil => exact Nat.zero_le 1
  | cons number others =>
    rw [numbers] at held
    cases held
    exact Nat.le_refl 1

/-- A set that holds a command is the only one that does. -/
theorem Sound.holders_eq (sound : loads.Sound access dialect initial) (listed : set ∈ loads.sets)
    {isMember : Bool} {number : Nat} (holds : set.number? isMember = some number) :
    loads.holders isMember = [number] := by
  have among : number ∈ loads.holders isMember := List.mem_filterMap.mpr ⟨set, listed, holds⟩
  have few := sound.few isMember
  generalize loads.holders isMember = numbers at among few
  cases numbers with
  | nil => cases among
  | cons first others =>
    obtain rfl : others = [] := List.length_eq_zero_iff.mp (by simpa using few)
    rw [List.mem_singleton.mp among]

theorem holders_ne_nil_iff {isMember : Bool} :
    loads.holders isMember ≠ [] ↔ ∃ set ∈ loads.sets, set.holds isMember = true := by
  simp [holders, List.filterMap_eq_nil_iff, number?_eq_none]

/-- A request preserves that the table is as the holders say. -/
theorem Sound.serve (start : access.Unspliced dialect initial)
    (sound : loads.Sound access dialect initial) (request : LoadRequest) :
    (loads.serve host dialect request).Sound access dialect initial := by
  cases request with
  | install procedures members =>
    by_cases taken : ∃ isMember, (bif isMember then members else procedures).isEmpty = false ∧
        loads.holders isMember ≠ []
    · obtain ⟨_, after, refused, -, -, arranged⟩ :=
        install_refused start sound.arranged taken
      rw [Loads.serve, refused]
      exact ⟨sound.fits, arranged⟩
    · have vacant : ∀ isMember, (bif isMember then members else procedures).isEmpty = false →
          loads.holders isMember = [] := by
        intro isMember bodies
        by_contra held
        exact taken ⟨isMember, bodies, held⟩
      obtain ⟨set, after, installed, fits, -, arranged⟩ :=
        install_arranged start sound.arranged vacant
      rw [Loads.serve, installed]
      constructor
      · intro other listed
        rcases List.mem_append.mp listed with early | late
        · exact sound.fits other early
        · rw [List.mem_singleton.mp late]
          exact fits
      · convert arranged using 1
        funext isMember
        cases number : set.number? isMember <;> simp [holders, List.filterMap_append, number]
  | uninstall number =>
    rw [Loads.serve]
    cases there : loads.sets[number]? with
    | none => exact sound
    | some set =>
      have listed := List.mem_of_getElem? there
      obtain ⟨left, after, removed, fits, cleared, arranged⟩ :=
        uninstall_arranged start sound.arranged (sound.fits set listed)
          fun _ holds => holders_ne_nil_iff.mpr ⟨set, listed, holds⟩
      simp only [removed]
      constructor
      · intro other found
        rcases List.mem_or_eq_of_mem_set found with early | rfl
        · exact sound.fits other early
        · exact fits
      · convert arranged using 1
        funext isMember
        have gone := number?_eq_none.mpr (cleared isMember)
        have few := sound.few isMember
        rw [← isSome_number?]
        exact filterMap_set_of_few there few gone

theorem Sound.serveAll (start : access.Unspliced dialect initial)
    (sound : loads.Sound access dialect initial) (requests : List LoadRequest) :
    (loads.serveAll host dialect requests).Sound access dialect initial := by
  induction requests generalizing loads with
  | nil => exact sound
  | cons request requests ih => exact ih (sound.serve start request)

/-- What may be relied on while loads come and go, given the table from the beginning. -/
structure Orderly (access : CommandAccess host ν κ) (dialect : Dialect) (initial : ν → Option κ)
    (loads : Loads σ) : Prop where
  /-- A command is held by one load at most. -/
  atMostOne : ∀ isMember, (loads.sets.countP fun set => set.holds isMember) ≤ 1
  /-- A reserved name is taken exactly if some load holds the command. -/
  reserved : ∀ isMember,
    (access.entries loads.world.host
        (access.place (reservedName (dialect.command isMember)))).isSome ↔
      ∃ set ∈ loads.sets, set.holds isMember = true
  /-- The command itself stands there, and the interceptor of the load that holds it is in its
  stead. -/
  spliced : ∀ set ∈ loads.sets, ∀ isMember installation,
    set.part isMember = some installation → installation.isInstalled = true →
      access.entries loads.world.host (access.place (reservedName (dialect.command isMember))) =
          initial (access.place (dialect.command isMember)) ∧
        access.entries loads.world.host (access.place (dialect.command isMember)) =
          some (access.standIn ⟨reservedName (dialect.command isMember), dialect.form isMember,
            installation.registry⟩)
  /-- A command that no load holds is at its place. -/
  original : ∀ isMember, (∀ set ∈ loads.sets, set.holds isMember = false) →
    access.entries loads.world.host (access.place (dialect.command isMember)) =
      initial (access.place (dialect.command isMember))
  /-- A load gets its splices exactly if no other load holds a command it has bodies for. -/
  served : ∀ procedures members,
    (∃ set after, SpliceSet.install host dialect procedures members loads.world = .ok set after) ↔
      ∀ isMember, (bif isMember then members else procedures).isEmpty = false →
        ∀ set ∈ loads.sets, set.holds isMember = false
  /-- A load that is refused is told which command is held, and has not changed the table. -/
  refused : ∀ procedures members error after,
    SpliceSet.install host dialect procedures members loads.world = .error error after →
      (∃ isMember, error = .splice (.alreadyIntercepted (dialect.command isMember)) ∧
        (bif isMember then members else procedures).isEmpty = false ∧
          ∃ set ∈ loads.sets, set.holds isMember = true) ∧
        access.entries after.host = access.entries loads.world.host
  /-- The splices of a load can always be removed. -/
  removed : ∀ set ∈ loads.sets, ∃ left after,
    SpliceSet.uninstall host set loads.world = .ok (left, .ok ()) after ∧
      left.isInstalled = false
  /-- If all are removed, the table is the one from the beginning. -/
  restored : (∀ set ∈ loads.sets, set.isInstalled = false) →
    access.entries loads.world.host = initial

theorem length_holders (loads : Loads σ) (isMember : Bool) :
    (loads.holders isMember).length = loads.sets.countP fun set => set.holds isMember := by
  simp only [holders, List.length_filterMap_eq_countP, isSome_number?]

theorem holders_eq_nil_iff {isMember : Bool} :
    loads.holders isMember = [] ↔ ∀ set ∈ loads.sets, set.holds isMember = false := by
  simp [holders, List.filterMap_eq_nil_iff, number?_eq_none]

/-- If the table is as the holders say, then all is in order. -/
theorem Sound.orderly (start : access.Unspliced dialect initial)
    (sound : loads.Sound access dialect initial) : loads.Orderly access dialect initial where
  atMostOne isMember := by
    rw [← length_holders]
    exact sound.few isMember
  reserved isMember := by
    rw [← holders_ne_nil_iff]
    have bound := start.bound isMember
    have held := sound.arranged.held isMember
    cases numbers : loads.holders isMember with
    | nil =>
      rw [numbers] at held
      cases held with
      | vacant shown free => simp [free]
    | cons number others =>
      rw [numbers] at held
      cases held with
      | taken number shown moved => simp [moved, bound]
  spliced set listed isMember installation there installed := by
    have held := sound.arranged.held isMember
    rw [sound.holders_eq listed (number?_of_part there installed)] at held
    cases held with
    | taken number shown moved => exact ⟨moved, shown⟩
  original isMember unheld := by
    have held := sound.arranged.held isMember
    rw [holders_eq_nil_iff.mpr unheld] at held
    cases held with
    | vacant shown free => exact shown
  served procedures members := by
    constructor
    · rintro ⟨set, after, installed⟩ isMember bodies
      by_contra held
      obtain ⟨_, _, refused, -⟩ := install_refused start sound.arranged
        ⟨isMember, bodies, fun unheld => held (holders_eq_nil_iff.mp unheld)⟩
      rw [installed] at refused
      cases refused
    · intro unheld
      obtain ⟨set, after, installed, -⟩ := install_arranged start sound.arranged
        fun isMember bodies => holders_eq_nil_iff.mpr (unheld isMember bodies)
      exact ⟨set, after, installed⟩
  refused procedures members error after failed := by
    have taken : ∃ isMember, (bif isMember then members else procedures).isEmpty = false ∧
        loads.holders isMember ≠ [] := by
      by_contra vacant
      simp only [not_exists, not_and, ne_eq, not_not] at vacant
      obtain ⟨_, _, installed, -⟩ := install_arranged start sound.arranged vacant
      rw [failed] at installed
      cases installed
    obtain ⟨isMember, _, refused, bodies, held, arranged⟩ :=
      install_refused start sound.arranged taken
    rw [failed] at refused
    cases refused
    exact ⟨⟨isMember, rfl, bodies, holders_ne_nil_iff.mp held⟩, arranged.unique sound.arranged⟩
  removed set listed := by
    obtain ⟨left, after, removed, -, cleared, -⟩ :=
      uninstall_arranged start sound.arranged (sound.fits set listed)
        fun _ holds => holders_ne_nil_iff.mpr ⟨set, listed, holds⟩
    refine ⟨left, after, removed, ?_⟩
    rw [isInstalled_eq, cleared, cleared]
    rfl
  restored uninstalled := by
    have unheld : loads.holders = fun _ => [] := by
      funext isMember
      apply holders_eq_nil_iff.mpr
      intro set listed
      have neither := uninstalled set listed
      rw [isInstalled_eq, Bool.or_eq_false_iff] at neither
      cases isMember with
      | false => exact neither.1
      | true => exact neither.2
    have arranged := sound.arranged
    rw [unheld] at arranged
    exact arranged.unique start.arranged

/-- **Several loads on one host stay out of each other's way.**  On a host whose definition commands
are unspliced, after any requests for splices and their removal, a command is held by one load at
most and stands where that load has moved it, every load whose commands are not held gets its
splices, a refused load changes nothing, and without installed splices the table is the one from
the beginning. -/
theorem serveAll_orderly {world : World σ}
    (start : access.Unspliced dialect (access.entries world.host)) (requests : List LoadRequest) :
    (serveAll host dialect ⟨world, []⟩ requests).Orderly access dialect
      (access.entries world.host) := by
  have sound : Sound access dialect (access.entries world.host) ⟨world, []⟩ := by
    refine ⟨?_, start.arranged⟩
    intro set listed
    cases listed
  exact (sound.serveAll start requests).orderly start

/-- A body for a procedure and none for members. -/
def oneProcedure : Registry DefinitionKey := ⟨[(.procedure "::f", ⟨"::", "", Block.empty⟩)]⟩

/-- A body for a member and none for procedures. -/
def oneMember : Registry DefinitionKey :=
  ⟨[(.member "::c" .method "m", ⟨"::c", "", Block.empty⟩)]⟩

/-- Loads for procedures and for members that overlap, with two that are refused: one is refused
its first splice, and one its second. -/
def overlapping : List LoadRequest :=
  [.install oneProcedure .empty, .install oneProcedure oneMember, .install .empty oneMember,
    .uninstall 0, .install oneProcedure oneMember, .install oneProcedure .empty,
    .uninstall 1, .uninstall 0]

/-- Three of the loads have got their splices, and the last of them has kept them. -/
theorem serveAll_orderly_overlapping :
    let world : World Interpreter := ⟨.ofVersion ⟨1, 0⟩, []⟩
    let access := Interpreter.commandTable.access
    let loads := serveAll Interpreter.host {} ⟨world, []⟩ overlapping
    (loads.sets.map fun set => (set.holds false, set.holds true)) =
        [(false, false), (false, false), (true, false)] ∧
      loads.Orderly access {} (access.entries world.host) := by
  intro world access loads
  have start : access.Unspliced {} (access.entries world.host) :=
    ⟨by decide +kernel, by decide +kernel, by decide +kernel⟩
  exact ⟨by decide +kernel, serveAll_orderly start overlapping⟩

end Loads

end CompiledScript
