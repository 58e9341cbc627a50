import CompiledScript.Proofs.Splice.Refusals

/-!
# Trying a removal again

Removing a splice takes two changes of the command table: the interceptor is deleted, and
the command is moved back to its name.  If the host refuses one of them the removal fails
and the splice is still taken to be installed, whichever of the two it was.

If the deletion was refused, nothing has changed, and a second attempt on a host that
refuses nothing brings the command back.  If the renaming was refused, the interceptor is
gone, and a second attempt begins by deleting it once more.  A host that reports the
deletion of a command that is not there fails there again, and so does every attempt after
it: nothing stands at the name of the command, the command stays at its reserved name, and
because that name is taken the command cannot be spliced anew either.
-/

set_option autoImplicit false

namespace CompiledScript

variable {σ ν κ : Type} [DecidableEq ν] {host : Host σ} {table : RefusingTable host ν κ}
  {splice : Splice} {before after later : World σ}

namespace RefusingTable

/-- The host refuses to delete what stands at the name of a splice. -/
def DeletionRefused (table : RefusingTable host ν κ) (splice : Splice) (world : World σ) : Prop :=
  (table.entries world.host (table.place splice.name)).isSome ∧
    ∃ error after, host.delete splice.name world = .error error after

/-! ## One more attempt -/

/-- A removal that failed has not touched the reserved name.  Something stands at the name of the
splice exactly if it was the deletion that was refused. -/
theorem left_of_failed_uninstall {error : HostError}
    (apart : table.place splice.name ≠ table.place splice.reserved)
    (failed : splice.uninstall host before = .error error after) :
    table.entries after.host (table.place splice.reserved) =
        table.entries before.host (table.place splice.reserved) ∧
      ((table.entries after.host (table.place splice.name)).isSome ↔
        table.DeletionRefused splice before) := by
  have removal := splice.removal host before
  rw [failed] at removal
  cases removal with
  | undeleted _ refused =>
    rw [table.delete_error _ _ _ _ refused]
    refine ⟨rfl, fun shown => ⟨shown, _, _, refused⟩, fun refusal => refusal.1⟩
  | unmoved _ deleted refused =>
    rw [table.rename_error _ _ _ _ _ refused, table.delete_ok _ _ _ deleted]
    refine ⟨Function.update_of_ne apart.symm .., fun shown => ?_, fun refusal => ?_⟩
    · rw [Function.update_self] at shown
      cases shown
    · obtain ⟨-, _, _, undeleted⟩ := refusal
      rw [deleted] at undeleted
      cases undeleted

/-- A splice without an interceptor cannot be removed where missing commands are reported. -/
theorem uninstall_of_gone (reports : table.ReportsMissing) (inForce : splice.state = .installed)
    (gone : table.entries before.host (table.place splice.name) = none) :
    ∃ error after, splice.uninstall host before = .error error after ∧
      table.entries after.host = table.entries before.host := by
  obtain ⟨error, after, failed⟩ := reports splice.name before gone
  refine ⟨error, after, ?_, table.delete_error _ _ _ _ failed⟩
  rw [Splice.uninstall, inForce]
  exact Steps.bind_error failed

/-- On a host that refuses nothing, a splice is removed exactly if something stands at its name. -/
theorem uninstall_iff_shown (reports : table.ReportsMissing) (inForce : splice.state = .installed)
    (apart : table.place splice.name ≠ table.place splice.reserved)
    (moved : (table.entries before.host (table.place splice.reserved)).isSome)
    (obliging : table.ObligingFor splice before) :
    (∃ left after, splice.uninstall host before = .ok left after) ↔
      (table.entries before.host (table.place splice.name)).isSome := by
  constructor
  · rintro ⟨left, after, done⟩
    by_contra hidden
    rw [Option.not_isSome_iff_eq_none] at hidden
    obtain ⟨_, _, failed, -⟩ := uninstall_of_gone reports inForce hidden
    rw [done] at failed
    cases failed
  · intro shown
    obtain ⟨after, done, -⟩ := unspliced_of_uninstall obliging inForce apart shown moved
    exact ⟨_, after, done⟩

/-- A splice that is removed gives its name back to what stands at the reserved name. -/
theorem restored_of_uninstall {left : Splice} (inForce : splice.state = .installed)
    (apart : table.place splice.name ≠ table.place splice.reserved)
    (done : splice.uninstall host before = .ok left after) :
    left.state = .uninstalled ∧
      table.entries after.host (table.place splice.name) =
        table.entries before.host (table.place splice.reserved) ∧
      table.entries after.host (table.place splice.reserved) = none := by
  have removal := splice.removal host before
  rw [done] at removal
  cases removal with
  | idle uninstalled =>
    rw [inForce] at uninstalled
    cases uninstalled
  | removed _ deleted back =>
    obtain ⟨entry, there, -, entries⟩ := table.rename_ok _ _ _ _ back
    rw [entries, Function.update_self, ← there, table.delete_ok _ _ _ deleted,
      Function.update_of_ne apart.symm, Function.update_of_ne apart.symm, Function.update_self]
    exact ⟨rfl, rfl, rfl⟩

end RefusingTable

/-! ## Every further attempt -/

namespace Splices

variable {state : Splices σ} {original : κ}

/-- A splice is taken to be installed whose interceptor is gone and whose command is at the reserved
name. -/
structure Stuck (table : RefusingTable host ν κ) (splice : Splice) (original : κ)
    (state : Splices σ) : Prop where
  listed : state.splices = [splice]
  gone : table.entries state.world.host (table.place splice.name) = none
  moved : table.entries state.world.host (table.place (reservedName splice.name)) = some original

theorem Stuck.of_entries {world : World σ} (stuck : state.Stuck table splice original)
    (same : table.entries world.host = table.entries state.world.host) :
    Stuck table splice original ⟨world, state.splices⟩ where
  listed := stuck.listed
  gone := same ▸ stuck.gone
  moved := same ▸ stuck.moved

/-- A request changes nothing about a splice that is stuck. -/
theorem Stuck.serve (reports : table.ReportsMissing) (inForce : splice.state = .installed)
    (stuck : state.Stuck table splice original) {request : SpliceRequest σ}
    (fair : request.Fair table splice.name original) :
    (state.serve host splice.name request).Stuck table splice original := by
  cases request with
  | install interceptor =>
    have taken : (table.entries state.world.host
        (table.place (reservedName splice.name))).isSome :=
      Option.isSome_of_eq_some stuck.moved
    rw [← table.hasCommand] at taken
    rw [Splices.serve, Splice.install_of_taken interceptor taken]
    exact stuck
  | uninstall number =>
    rw [Splices.serve, stuck.listed]
    cases number with
    | zero =>
      obtain ⟨error, after, failed, same⟩ :=
        RefusingTable.uninstall_of_gone reports inForce stuck.gone
      simp only [List.getElem?_cons_zero, failed]
      rw [← stuck.listed]
      exact stuck.of_entries same
    | succ number => exact stuck
  | meanwhile change =>
    refine ⟨stuck.listed, ?_, ?_⟩
    · exact (fair state.world splice.name List.mem_cons_self).trans stuck.gone
    · exact (fair state.world (reservedName splice.name)
        (List.mem_cons_of_mem _ List.mem_cons_self)).trans stuck.moved

theorem Stuck.serveAll (reports : table.ReportsMissing) (inForce : splice.state = .installed)
    (stuck : state.Stuck table splice original) {requests : List (SpliceRequest σ)}
    (fair : ∀ request ∈ requests, request.Fair table splice.name original) :
    (state.serveAll host splice.name requests).Stuck table splice original := by
  induction requests generalizing state with
  | nil => exact stuck
  | cons request requests ih =>
    obtain ⟨first, others⟩ := List.forall_mem_cons.mp fair
    exact ih (stuck.serve reports inForce first) others

end Splices

/-! ## Which failures can be made good -/

namespace Splice

/-- **A removal that failed can be tried again exactly if it was the deletion that was refused.**
The host reports the deletion of missing commands, and the command stands at the reserved name of a
splice in force.  After a refused deletion a second attempt, in which the host refuses nothing,
brings the command back to its name and frees the reserved name.  After a refused renaming it fails,
and no requests about the command make a difference any more, whatever the host refuses or not: the
splice stays installed, nothing stands at the name of the command, and the command stays at the
reserved name. -/
theorem retried_iff_undeleted (reports : table.ReportsMissing) {original : κ} {error : HostError}
    (own : splice.reserved = reservedName splice.name) (inForce : splice.state = .installed)
    (apart : table.place splice.name ≠ table.place splice.reserved)
    (moved : table.entries before.host (table.place splice.reserved) = some original)
    (failed : splice.uninstall host before = .error error after) :
    (∀ later, (∀ spelling ∈ [splice.name, splice.reserved],
          table.entries later.host (table.place spelling) =
            table.entries after.host (table.place spelling)) →
        table.ObligingFor splice later →
      ((∃ left finished, splice.uninstall host later = .ok left finished) ↔
          table.DeletionRefused splice before) ∧
        ∀ left finished, splice.uninstall host later = .ok left finished →
          left.state = .uninstalled ∧
            table.entries finished.host (table.place splice.name) = some original ∧
            table.entries finished.host (table.place splice.reserved) = none) ∧
      (¬ table.DeletionRefused splice before →
        ∀ requests, (∀ request ∈ requests, request.Fair table splice.name original) →
          (Splices.serveAll host splice.name ⟨after, [splice]⟩ requests).Stuck table splice
            original) := by
  obtain ⟨kept, shown⟩ := table.left_of_failed_uninstall apart failed
  rw [moved] at kept
  constructor
  · intro later same obliging
    obtain ⟨sameName, others⟩ := List.forall_mem_cons.mp same
    have there := (List.forall_mem_singleton.mp others).trans kept
    constructor
    · rw [← shown, ← sameName]
      exact table.uninstall_iff_shown reports inForce apart (Option.isSome_of_eq_some there)
        obliging
    · intro left finished done
      obtain ⟨removed, back, free⟩ := table.restored_of_uninstall inForce apart done
      exact ⟨removed, back.trans there, free⟩
  · intro deleted requests fair
    have stuck : Splices.Stuck table splice original ⟨after, [splice]⟩ := by
      refine ⟨rfl, ?_, own ▸ kept⟩
      rw [← shown, Option.not_isSome_iff_eq_none] at deleted
      exact deleted
    exact stuck.serveAll reports inForce fair

/-- The command `proc` as it is spliced on a rehearsal host. -/
def ofProc : Splice := ⟨"proc", reservedName "proc", .installed⟩

/-- A host with this command only, and what the host refuses. -/
def plainProc (refusals : Rehearsal.Refusals) : World (Rehearsal Unit) where
  host := { commands := [("proc", .native)], refusals, stage := () }
  registries := []

/-- The same host where the command is spliced. -/
def splicedProc (refusals : Rehearsal.Refusals) : World (Rehearsal Unit) where
  host :=
    { commands := [("proc", .interceptor ⟨reservedName "proc", .procedures, 0⟩),
        (reservedName "proc", .native)]
      refusals
      stage := () }
  registries := []

/-- The spliced host without the interceptor. -/
def unguardedProc (refusals : Rehearsal.Refusals) : World (Rehearsal Unit) where
  host := { commands := [(reservedName "proc", .native)], refusals, stage := () }
  registries := []

/-- The host refuses the deletion at first, and the second attempt brings the command back. -/
theorem retried_iff_undeleted_proc :
    let table := Rehearsal.refusingTable (pure "" : Rehearsal.Action Unit String)
    (∃ error, ofProc.uninstall (Rehearsal.host (pure "")) (splicedProc { delete := ["proc"] }) =
        .error error (splicedProc { delete := ["proc"] })) ∧
      ∃ left finished,
        ofProc.uninstall (Rehearsal.host (pure "")) (splicedProc {}) = .ok left finished ∧
        left.state = .uninstalled ∧
        table.entries finished.host "proc" = some .native ∧
        table.entries finished.host (reservedName "proc") = none := by
  intro table
  have apart : table.place ofProc.name ≠ table.place ofProc.reserved := by decide
  have moved : table.entries (splicedProc { delete := ["proc"] }).host
      (table.place ofProc.reserved) = some .native := by decide
  have refused : table.DeletionRefused ofProc (splicedProc { delete := ["proc"] }) :=
    ⟨by decide, _, _, rfl⟩
  obtain ⟨retried, restored⟩ :=
    (retried_iff_undeleted (Rehearsal.reportsMissing _) rfl rfl apart moved rfl).1
      (splicedProc {}) (fun _ _ => rfl) (Rehearsal.obligingFor_of_unrefusing _ _ rfl rfl)
  obtain ⟨left, finished, done⟩ := retried.mpr refused
  exact ⟨⟨_, rfl⟩, left, finished, done, restored left finished done⟩

/-- The host refuses to move the command back at first, and the second attempt fails because there
is no interceptor left to delete, although nothing is refused any more. -/
theorem unmoved_not_retried :
    let table := Rehearsal.refusingTable (pure "" : Rehearsal.Action Unit String)
    let refusals : Rehearsal.Refusals := { rename := [reservedName "proc"] }
    table.ReportsMissing ∧
      Splice.install (Rehearsal.host (pure "")) "proc" ⟨reservedName "proc", .procedures, 0⟩
        (plainProc refusals) = .ok ofProc (splicedProc refusals) ∧
      ofProc.state = .installed ∧
      table.entries (splicedProc refusals).host (table.place ofProc.reserved) = some .native ∧
      ofProc.uninstall (Rehearsal.host (pure "")) (splicedProc refusals) =
        .error ⟨"rename of \"::__tbc_original::proc\" refused"⟩ (unguardedProc refusals) ∧
      table.ObligingFor ofProc (unguardedProc {}) ∧
      ofProc.uninstall (Rehearsal.host (pure "")) (unguardedProc {}) =
        .error ⟨"no command \"proc\""⟩ (unguardedProc {}) := by
  intro table refusals
  refine ⟨Rehearsal.reportsMissing _, rfl, rfl, by decide, rfl, ?_, rfl⟩
  exact Rehearsal.obligingFor_of_unrefusing _ _ rfl rfl

end Splice

end CompiledScript
