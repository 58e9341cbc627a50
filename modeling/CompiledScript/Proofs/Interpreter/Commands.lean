import CompiledScript.Interpreter.Host
import CompiledScript.Proofs.Splice.CommandTable

/-!
# The commands of the interpreter

The interpreter is a host whose commands form a table: names that are given to it
from outside stand for places in the global namespace, and renaming, binding and
deleting change the places they name and no others.
-/

set_option autoImplicit false

namespace CompiledScript

namespace Table

variable {κ α : Type} [DecidableEq κ]

theorem lookup_cons_of_ne {key other : κ} {value : α} {table : Table κ α}
    (different : other ≠ key) : List.lookup other ((key, value) :: table) = table.lookup other := by
  rw [List.lookup_cons, beq_eq_false_iff_ne.mpr different]

theorem lookup_without_self (key : κ) (table : Table κ α) :
    (Table.without key table).lookup key = none := by
  refine List.lookup_eq_none_iff.mpr fun entry found => ?_
  have kept := (List.mem_filter.mp found).2
  rw [Bool.not_eq_true', beq_eq_false_iff_ne] at kept
  exact bne_iff_ne.mpr kept.symm

theorem lookup_without_of_ne {key other : κ} (different : other ≠ key) (table : Table κ α) :
    (Table.without key table).lookup other = table.lookup other := by
  induction table with
  | nil => rfl
  | cons entry table ih =>
    obtain ⟨name, value⟩ := entry
    rw [without] at ih ⊢
    by_cases taken : name = key
    · rw [List.filter_cons_of_neg (by simpa using taken), ih, taken, lookup_cons_of_ne different]
    · rw [List.filter_cons_of_pos (by simpa using taken), List.lookup_cons, List.lookup_cons, ih]

/-- Taking out a key empties its place. -/
theorem lookup_without (key : κ) (table : Table κ α) :
    (fun other => (Table.without key table).lookup other) =
      Function.update (fun other => table.lookup other) key none := by
  funext other
  by_cases same : other = key
  · rw [same, Function.update_self, lookup_without_self]
  · rw [Function.update_of_ne same, lookup_without_of_ne same]

/-- Putting in a key changes what stands at its place. -/
theorem lookup_put (key : κ) (value : α) (table : Table κ α) :
    (fun other => (Table.put key value table).lookup other) =
      Function.update (fun other => table.lookup other) key (some value) := by
  funext other
  by_cases same : other = key
  · rw [same, Function.update_self]
    exact List.lookup_cons_self
  · rw [Function.update_of_ne same, ← lookup_without_of_ne same table]
    exact lookup_cons_of_ne same

end Table

/-- An absolute name does not depend on where it is taken to stand. -/
theorem Name.qualify_qualify (name : String) :
    Name.qualify (Name.qualify name Name.global) Name.global = Name.qualify name Name.global := by
  by_cases absolute : Name.isAbsolute name = true
  · rw [Name.qualify, Name.qualify, if_pos absolute, if_pos absolute]
  · have prefixed : Name.qualify name Name.global = "::" ++ name := by
      rw [Name.qualify, if_neg absolute, if_pos (.inl rfl)]
    have nowAbsolute : Name.isAbsolute ("::" ++ name) = true := by
      simp [Name.isAbsolute]
    rw [prefixed, Name.qualify, if_pos nowAbsolute]

namespace Interpreter

theorem globally?_qualify (interpreter : Interpreter) (name : String) :
    interpreter.globally? (Name.qualify name Name.global) = interpreter.globally? name := by
  rw [globally?, Name.qualify_qualify, globally?]

theorem look_bind {α β : Type} (view : Interpreter → α) (next : α → Action β)
    (world : World Interpreter) : (look view >>= next) world = next (view world.host) world :=
  rfl

/-- A command that is there gets another name if that one is free. -/
theorem rename_ok {source target : String} {world : World Interpreter} {entry : CommandEntry}
    (there : world.host.globally? source = some entry)
    (free : world.host.globally? target = none) :
    rename source target world = .ok () { world with
      host := { world.host with
        commands := Table.put (Name.qualify target Name.global) entry
          (Table.without (Name.qualify source Name.global) world.host.commands) } } := by
  have vacant : ¬ (world.host.globally? target).isSome := by
    rw [free]
    exact Bool.false_ne_true
  simp only [rename, look_bind, globally?_qualify]
  rw [if_neg vacant]
  simp only [look_bind, there]
  rfl

theorem rename_error {source target : String} {world : World Interpreter}
    (failing : world.host.globally? source = none ∨ (world.host.globally? target).isSome) :
    ∃ error, rename source target world = .error error world := by
  simp only [rename, look_bind, globally?_qualify]
  by_cases taken : (world.host.globally? target).isSome
  · rw [if_pos taken]
    exact ⟨_, rfl⟩
  · rw [if_neg taken]
    simp only [look_bind, failing.resolve_right taken]
    exact ⟨_, rfl⟩

/-- A command that is there is deleted. -/
theorem delete_ok {name : String} {world : World Interpreter}
    (there : (world.host.globally? name).isSome) :
    delete name world = .ok () { world with
      host := { world.host with
        commands := Table.without (Name.qualify name Name.global) world.host.commands } } := by
  rw [← Option.isNone_eq_false_iff] at there
  simp only [delete, look_bind, there]
  rfl

theorem delete_error {name : String} {world : World Interpreter}
    (missing : world.host.globally? name = none) :
    ∃ error, delete name world = .error error world := by
  simp only [delete, look_bind, missing]
  exact ⟨_, rfl⟩

/-- The commands of an interpreter as a table. -/
def commandTable : CommandTable host String CommandEntry where
  place name := Name.qualify name Name.global
  entries interpreter place := interpreter.commands.lookup place
  standIn := .interceptor
  hasCommand _ _ := rfl
  rename_ok source target world entry there free := by
    refine ⟨_, rename_ok there free, ?_⟩
    rw [← Table.lookup_without, ← Table.lookup_put]
  rename_error source target world failing := by
    obtain ⟨error, failed⟩ := rename_error failing
    exact ⟨error, world, failed, rfl⟩
  register name interceptor world := ⟨_, rfl, Table.lookup_put _ _ _⟩
  delete_ok name world there := ⟨_, delete_ok there, Table.lookup_without _ _⟩
  delete_error name world missing := by
    obtain ⟨error, failed⟩ := delete_error missing
    exact ⟨error, world, failed, rfl⟩

/-- Whatever is done to the commands of an interpreter, the registries of the loads stay. -/
theorem keepsRegistries : Interpreter.host.KeepsRegistries where
  rename source target before after done := by
    change rename source target before = .ok () after at done
    have refused : ¬ ∃ error, rename source target before = .error error before := by
      rintro ⟨error, failed⟩
      rw [failed] at done
      cases done
    cases there : before.host.globally? source with
    | none => exact (refused (rename_error (.inl there))).elim
    | some entry =>
      cases free : before.host.globally? target with
      | none =>
        rw [rename_ok there free] at done
        cases done
        rfl
      | some other => exact (refused (rename_error (.inr (Option.isSome_of_eq_some free)))).elim
  register name interceptor before after done := by
    cases done
    rfl

end Interpreter

end CompiledScript
