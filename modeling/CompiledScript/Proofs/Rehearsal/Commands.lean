import CompiledScript.Proofs.Interpreter.Commands
import CompiledScript.Proofs.Splice.Obliging
import CompiledScript.Rehearsal.Host

/-!
# The commands of a rehearsal host

A rehearsal host matches names as they are and refuses what it was told to refuse.
Each of its actions on commands either fails at once, and then has done nothing, or
changes the places it names and no others.  As long as it was told to refuse no renaming
and no deletion, it is obliging.
-/

set_option autoImplicit false

namespace CompiledScript.Rehearsal

variable {ω : Type}

theorem find?_without (name : String) (rehearsal : Rehearsal ω) :
    { rehearsal with commands := without name rehearsal.commands }.find? =
      Function.update rehearsal.find? name none :=
  Table.lookup_without name rehearsal.commands

theorem find?_put (name : String) (entry : Entry) (rehearsal : Rehearsal ω) :
    (put name entry rehearsal).find? = Function.update rehearsal.find? name (some entry) :=
  Table.lookup_put name entry rehearsal.commands

theorem rename_cases (source target : String) (before : World (Rehearsal ω)) :
    (∃ error, rename source target before = .error error before) ∨
      ∃ entry, before.host.find? source = some entry ∧ before.host.find? target = none ∧
        rename source target before = .ok () { before with
          host := put target entry
            { before.host with commands := without source before.host.commands } } := by
  rw [show rename source target before = _ from Steps.bind_ok rfl]
  by_cases refused : source ∈ before.host.refusals.rename
  · rw [if_pos refused]
    exact .inl ⟨_, rfl⟩
  · rw [if_neg refused]
    by_cases taken : (before.host.find? target).isSome = true
    · rw [if_pos taken]
      exact .inl ⟨_, rfl⟩
    · rw [if_neg taken]
      cases there : before.host.find? source with
      | none => exact .inl ⟨_, rfl⟩
      | some entry => exact .inr ⟨entry, rfl, by simpa using taken, rfl⟩

theorem register_cases (name : String) (interceptor : Interceptor)
    (before : World (Rehearsal ω)) :
    (∃ error, register name interceptor before = .error error before) ∨
      register name interceptor before =
        .ok () { before with host := put name (.interceptor interceptor) before.host } := by
  rw [show register name interceptor before = _ from Steps.bind_ok rfl]
  by_cases refused : name ∈ before.host.refusals.register
  · rw [if_pos refused]
    exact .inl ⟨_, rfl⟩
  · rw [if_neg refused]
    exact .inr rfl

theorem delete_cases (name : String) (before : World (Rehearsal ω)) :
    (∃ error, delete name before = .error error before) ∨
      delete name before = .ok () { before with
        host := { before.host with commands := without name before.host.commands } } := by
  rw [show delete name before = _ from Steps.bind_ok rfl]
  by_cases refused : name ∈ before.host.refusals.delete
  · rw [if_pos refused]
    exact .inl ⟨_, rfl⟩
  · rw [if_neg refused]
    by_cases missing : (before.host.find? name).isNone = true
    · rw [if_pos missing]
      exact .inl ⟨_, rfl⟩
    · rw [if_neg missing]
      exact .inr rfl

/-- An action that either fails at once or succeeds has changed nothing if it failed. -/
theorem kept_of_error {action : Action ω Unit} {before after : World (Rehearsal ω)}
    {error : HostError} {otherwise : Prop}
    (either : (∃ error, action before = .error error before) ∨ otherwise)
    (succeeded : otherwise → ∃ changed, action before = .ok () changed)
    (failed : action before = .error error after) : after = before := by
  rcases either with ⟨_, stayed⟩ | other
  · rw [stayed] at failed
    cases failed
    rfl
  · obtain ⟨_, done⟩ := succeeded other
    rw [done] at failed
    cases failed

/-- The rehearsal host refuses what it was told to refuse, and then does nothing. -/
def refusingTable (perform : Action ω String) :
    RefusingTable (host perform) String Entry where
  place := id
  entries := find?
  standIn := .interceptor
  hasCommand _ _ := rfl
  rename_ok source target before after done := by
    change rename source target before = _ at done
    rcases rename_cases source target before with ⟨error, failed⟩ | ⟨entry, there, free, renamed⟩
    · rw [failed] at done
      cases done
    · rw [renamed] at done
      cases done
      refine ⟨entry, there, free, ?_⟩
      rw [find?_put, find?_without]
      rfl
  rename_error source target before error after failed := by
    have kept := kept_of_error (rename_cases source target before)
      (fun ⟨_, _, _, renamed⟩ => ⟨_, renamed⟩) failed
    rw [kept]
  register_ok name interceptor before after done := by
    change register name interceptor before = _ at done
    rcases register_cases name interceptor before with ⟨error, failed⟩ | bound
    · rw [failed] at done
      cases done
    · rw [bound] at done
      cases done
      exact find?_put name _ before.host
  register_error name interceptor before error after failed := by
    have kept := kept_of_error (register_cases name interceptor before)
      (fun bound => ⟨_, bound⟩) failed
    rw [kept]
  delete_ok name before after done := by
    change delete name before = _ at done
    rcases delete_cases name before with ⟨error, failed⟩ | deleted
    · rw [failed] at done
      cases done
    · rw [deleted] at done
      cases done
      exact find?_without name before.host
  delete_error name before error after failed := by
    have kept := kept_of_error (delete_cases name before) (fun deleted => ⟨_, deleted⟩) failed
    rw [kept]

/-- A rehearsal host that was told to refuse no renaming and no deletion is obliging. -/
theorem obliging_of_unrefusing (perform : Action ω String) {world : World (Rehearsal ω)}
    (renames : world.host.refusals.rename = []) (deletes : world.host.refusals.delete = []) :
    (refusingTable perform).Obliging world where
  rename source target there free := by
    change (world.host.find? source).isSome at there
    change world.host.find? target = none at free
    obtain ⟨entry, there⟩ := Option.isSome_iff_exists.mp there
    have unrefused : source ∉ world.host.refusals.rename := renames ▸ List.not_mem_nil
    have vacant : ¬ (world.host.find? target).isSome := by simp [free]
    show ∃ after, rename source target world = .ok () after
    rw [show rename source target world = _ from Steps.bind_ok rfl, if_neg unrefused,
      if_neg vacant, there]
    exact ⟨_, rfl⟩
  delete name there := by
    change (world.host.find? name).isSome at there
    have unrefused : name ∉ world.host.refusals.delete := deletes ▸ List.not_mem_nil
    have present : ¬ (world.host.find? name).isNone = true := by
      rw [Option.isNone_eq_false_iff.mpr there]
      exact Bool.false_ne_true
    show ∃ after, delete name world = .ok () after
    rw [show delete name world = _ from Steps.bind_ok rfl, if_neg unrefused, if_neg present]
    exact ⟨_, rfl⟩

/-- What a rehearsal host refuses stays the same while a splice is removed. -/
theorem obligingFor_of_unrefusing (perform : Action ω String) (splice : Splice)
    {world : World (Rehearsal ω)} (renames : world.host.refusals.rename = [])
    (deletes : world.host.refusals.delete = []) :
    (refusingTable perform).ObligingFor splice world where
  first := obliging_of_unrefusing perform renames deletes
  halfway between done := by
    change delete splice.name world = _ at done
    rcases delete_cases splice.name world with ⟨error, failed⟩ | deleted
    · rw [failed] at done
      cases done
    · rw [deleted] at done
      cases done
      exact obliging_of_unrefusing perform renames deletes

theorem reportsMissing (perform : Action ω String) :
    (refusingTable perform).ReportsMissing := by
  intro name world missing
  change world.host.find? name = none at missing
  show ∃ error after, delete name world = .error error after
  rw [show delete name world = _ from Steps.bind_ok rfl]
  split
  · exact ⟨_, _, rfl⟩
  · rw [if_pos (by rw [missing]; rfl)]
    exact ⟨_, _, rfl⟩

end CompiledScript.Rehearsal
