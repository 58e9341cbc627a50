import CompiledScript.Proofs.Splice.CommandTable

/-!
# Changes that are not refused

A host that may refuse to change its command table can be obliging for a while: it then
renames every command that is there to every name that is free, and deletes every command
that is there.  Whether it takes interceptors is left open.

An obliging host lets go of a splice whose two names stand for something.  If it is
obliging throughout, an attempt to splice a command either changes the two places of the
command or leaves the table as it was, since a command can always be moved back to the
name it came from.  It fails only if the command is missing, its reserved name is taken or
an interceptor is refused.  A host with an ordinary command table that takes no interceptors at
some names is obliging throughout.
-/

set_option autoImplicit false

namespace CompiledScript

variable {σ ν κ : Type} [DecidableEq ν] {host : Host σ}

namespace RefusingTable

/-- In this world the host refuses no renaming and no deletion that is possible. -/
structure Obliging (table : RefusingTable host ν κ) (world : World σ) : Prop where
  rename : ∀ source target, (table.entries world.host (table.place source)).isSome →
    table.entries world.host (table.place target) = none →
      ∃ after, host.rename source target world = .ok () after
  delete : ∀ name, (table.entries world.host (table.place name)).isSome →
    ∃ after, host.delete name world = .ok () after

/-- From this world on the host refuses nothing until a splice is removed. -/
structure ObligingFor (table : RefusingTable host ν κ) (splice : Splice) (world : World σ) :
    Prop where
  first : table.Obliging world
  halfway : ∀ between, host.delete splice.name world = .ok () between → table.Obliging between

/-- A command that is not there cannot be deleted. -/
def ReportsMissing (table : RefusingTable host ν κ) : Prop :=
  ∀ name world, table.entries world.host (table.place name) = none →
    ∃ error after, host.delete name world = .error error after

theorem obligingFor_of_always {table : RefusingTable host ν κ}
    (obliging : ∀ world, table.Obliging world) (splice : Splice) (world : World σ) :
    table.ObligingFor splice world :=
  ⟨obliging world, fun between _ => obliging between⟩

variable {table : RefusingTable host ν κ} {before after : World σ}

/-! ## Removing a splice -/

/-- A splice in force is removed if both of its names stand for something. -/
theorem unspliced_of_uninstall {splice : Splice} (obliging : table.ObligingFor splice before)
    (installed : splice.state = .installed)
    (different : table.place splice.name ≠ table.place splice.reserved)
    (shown : (table.entries before.host (table.place splice.name)).isSome)
    (reserved : (table.entries before.host (table.place splice.reserved)).isSome) :
    ∃ after, splice.uninstall host before = .ok { splice with state := .uninstalled } after ∧
      table.entries after.host =
        Splice.unspliced (table.entries before.host) (table.place splice.name)
          (table.place splice.reserved) := by
  obtain ⟨between, deleted⟩ := obliging.first.delete splice.name shown
  have gone := table.delete_ok _ _ _ deleted
  have still : table.entries between.host (table.place splice.reserved) =
      table.entries before.host (table.place splice.reserved) := by
    rw [gone, Function.update_of_ne different.symm]
  have free : table.entries between.host (table.place splice.name) = none := by
    rw [gone, Function.update_self]
  rw [← still] at reserved
  obtain ⟨after, back⟩ := (obliging.halfway between deleted).rename _ _ reserved free
  obtain ⟨entry, there, -, moved⟩ := table.rename_ok _ _ _ _ back
  refine ⟨after, ?_, ?_⟩
  · rw [Splice.uninstall, installed]
    exact (Steps.bind_ok deleted).trans (Steps.bind_ok back)
  · rw [moved, gone]
    exact Splice.unspliced_of_moved different (still ▸ there)

/-! ## Making a splice -/

/-- A splice that was made: its command was there, its reserved name was free, and the table has
changed in these two places. -/
theorem spliced_of_install {name : String} {interceptor : Interceptor} {splice : Splice}
    (done : Splice.install host name interceptor before = .ok splice after) :
    splice = ⟨name, reservedName name, .installed⟩ ∧
      ∃ entry, table.entries before.host (table.place name) = some entry ∧
        table.entries before.host (table.place (reservedName name)) = none ∧
          table.entries after.host =
            Splice.spliced (table.entries before.host) (table.place name)
              (table.place (reservedName name)) entry (table.standIn interceptor) := by
  obtain ⟨same, -, -, moved, renamed, bound⟩ := Splice.install_steps done
  obtain ⟨entry, there, free, entries⟩ := table.rename_ok _ _ _ _ renamed
  refine ⟨same, entry, there, free, ?_⟩
  rw [table.register_ok _ _ _ _ bound, entries]
  exact Splice.spliced_of_moved _ (Splice.ne_of_free there free) _ _

/-- A command that is moved to a free name and back is where it was. -/
theorem entries_of_back {source target : String} {moved between : World σ}
    (renamed : host.rename source target before = .ok () moved)
    (kept : table.entries between.host = table.entries moved.host)
    (back : host.rename target source between = .ok () after) :
    table.entries after.host = table.entries before.host := by
  obtain ⟨entry, there, free, entries⟩ := table.rename_ok _ _ _ _ renamed
  obtain ⟨other, stood, -, restored⟩ := table.rename_ok _ _ _ _ back
  rw [kept, entries, Function.update_self] at stood
  cases stood
  rw [restored, kept, entries, Function.update_idem]
  funext place
  by_cases atSource : place = table.place source
  · rw [atSource, Function.update_self, there]
  · rw [Function.update_of_ne atSource]
    by_cases atTarget : place = table.place target
    · rw [atTarget, Function.update_self, free]
    · rw [Function.update_of_ne atTarget, Function.update_of_ne atSource]

/-- An attempt that fails has left the table as it was, if the command can be moved back. -/
theorem entries_of_failed_install (obliging : ∀ world, table.Obliging world) {name : String}
    {interceptor : Interceptor} {error : RuntimeError}
    (failed : Splice.install host name interceptor before = .error error after) :
    table.entries after.host = table.entries before.host := by
  have attempt := Splice.attempt host name interceptor before
  rw [failed] at attempt
  cases attempt with
  | taken _ => rfl
  | missing _ _ => rfl
  | unmoved refused => exact table.rename_error _ _ _ _ _ refused
  | movedBack renamed refused back =>
    exact entries_of_back renamed (table.register_error _ _ _ _ _ refused) back
  | stranded renamed refused stuck =>
    -- The command is at the reserved name, and its own name is free.
    obtain ⟨entry, there, free, entries⟩ := table.rename_ok _ _ _ _ renamed
    have kept := table.register_error _ _ _ _ _ refused
    rw [entries] at kept
    have different : table.place name ≠ table.place (reservedName name) :=
      Splice.ne_of_free there free
    obtain ⟨_, back⟩ := (obliging _).rename (reservedName name) name
      (by rw [kept, Function.update_self, Option.isSome_some])
      (by rw [kept, Function.update_of_ne different, Function.update_self])
    rw [back] at stuck
    cases stuck

/-- What keeps a command from being spliced: it is not there, its reserved name is taken, or the host
takes not every interceptor at its name. -/
inductive Obstructed (table : RefusingTable host ν κ) (name : String) (entries : ν → Option κ) :
    Prop
  | missing (gone : entries (table.place name) = none)
  | taken (taken : (entries (table.place (reservedName name))).isSome)
  | refused {interceptor : Interceptor} {between after : World σ} {error : HostError}
      (refused : host.register name interceptor between = .error error after)

/-- An attempt fails only where the command cannot be spliced. -/
theorem obstructed_of_failed_install (obliging : ∀ world, table.Obliging world) {name : String}
    {interceptor : Interceptor} {error : RuntimeError}
    (failed : Splice.install host name interceptor before = .error error after) :
    table.Obstructed name (table.entries before.host) := by
  have attempt := Splice.attempt host name interceptor before
  rw [failed] at attempt
  cases attempt with
  | taken taken =>
    rw [table.hasCommand] at taken
    exact .taken taken
  | missing _ missing =>
    rw [table.hasCommand, Option.isSome_eq_false_iff, Option.isNone_iff_eq_none] at missing
    exact .missing missing
  | unmoved refused =>
    by_contra unobstructed
    have there : (table.entries before.host (table.place name)).isSome := by
      by_contra gone
      exact unobstructed (.missing (Option.not_isSome_iff_eq_none.mp gone))
    have free : table.entries before.host (table.place (reservedName name)) = none := by
      by_contra taken
      exact unobstructed (.taken (Option.isSome_iff_ne_none.mpr taken))
    obtain ⟨_, renamed⟩ := (obliging before).rename name (reservedName name) there free
    rw [renamed] at refused
    cases refused
  | movedBack _ refused _ => exact .refused refused
  | stranded _ refused _ => exact .refused refused

end RefusingTable

/-! ## Hosts that refuse interceptors only -/

/-- A host that takes no interceptors at some names. -/
def Host.barring (host : Host σ) (names : List String) : Host σ :=
  { host with
    register := fun name interceptor =>
      if name ∈ names then throw ⟨"interceptor refused"⟩ else host.register name interceptor }

namespace CommandTable

/-- The table of a host that takes no interceptors at some names. -/
def barring (table : CommandTable host ν κ) (names : List String) :
    RefusingTable (host.barring names) ν κ where
  place := table.place
  entries := table.entries
  standIn := table.standIn
  hasCommand := table.hasCommand
  rename_ok source target before after done := by
    change host.rename source target before = _ at done
    rcases table.rename_cases source target before with
      ⟨_, _, failed, -⟩ | ⟨entry, _, there, free, renamed, entries⟩
    · rw [failed] at done
      cases done
    · rw [renamed] at done
      cases done
      exact ⟨entry, there, free, entries⟩
  rename_error source target before error after failed := by
    change host.rename source target before = _ at failed
    rcases table.rename_cases source target before with
      ⟨_, _, refused, kept⟩ | ⟨_, _, -, -, renamed, -⟩
    · rw [refused] at failed
      cases failed
      exact kept
    · rw [renamed] at failed
      cases failed
  register_ok name interceptor before after done := by
    obtain ⟨_, bound, entries⟩ := table.register name interceptor before
    by_cases barred : name ∈ names
    · simp only [Host.barring, if_pos barred] at done
      cases done
    · simp only [Host.barring, if_neg barred, bound] at done
      cases done
      exact entries
  register_error name interceptor before error after failed := by
    obtain ⟨_, bound, -⟩ := table.register name interceptor before
    by_cases barred : name ∈ names
    · simp only [Host.barring, if_pos barred] at failed
      cases failed
      rfl
    · simp only [Host.barring, if_neg barred, bound] at failed
      cases failed
  delete_ok name before after done := by
    change host.delete name before = _ at done
    rcases table.delete_cases name before with ⟨_, _, failed, -⟩ | ⟨_, deleted, entries⟩
    · rw [failed] at done
      cases done
    · rw [deleted] at done
      cases done
      exact entries
  delete_error name before error after failed := by
    change host.delete name before = _ at failed
    rcases table.delete_cases name before with ⟨_, _, refused, kept⟩ | ⟨_, deleted, -⟩
    · rw [refused] at failed
      cases failed
      exact kept
    · rw [deleted] at failed
      cases failed

theorem obliging_barring (table : CommandTable host ν κ) (names : List String) (world : World σ) :
    (table.barring names).Obliging world where
  rename source target there free := by
    obtain ⟨entry, there⟩ := Option.isSome_iff_exists.mp there
    obtain ⟨after, renamed, -⟩ := table.rename_ok source target world entry there free
    exact ⟨after, renamed⟩
  delete name there := by
    obtain ⟨after, deleted, -⟩ := table.delete_ok name world there
    exact ⟨after, deleted⟩

end CommandTable

end CompiledScript
