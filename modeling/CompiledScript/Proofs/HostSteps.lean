import CompiledScript.Proofs.Steps
import CompiledScript.Splice.Error
import Mathlib.Data.List.Forall2

/-!
# Actions of a host as steps

A save or a load asks a host to do something either as a step that has to succeed
or as an attempt whose failure is a result.  Both succeed with what the action
results in, and steps that have to succeed may be taken one by one.
-/

set_option autoImplicit false

namespace CompiledScript.HostM

variable {ε σ α β : Type}

/-- What becomes of an action whose failure ends a save or a load. -/
theorem required_ok {action : HostM σ α} {start finish : World σ} {value : α} :
    action.required start = .ok value finish ↔ action start = .ok value finish := by
  show EStateM.adaptExcept RuntimeError.host action start = _ ↔ _
  rw [EStateM.adaptExcept]
  cases action start with
  | ok middle between => simp
  | error error between => simp

theorem required_error {action : HostM σ α} {start finish : World σ} {error : HostError}
    (failed : action start = .error error finish) :
    action.required start = .error (.host error) finish := by
  show EStateM.adaptExcept RuntimeError.host action start = _
  rw [EStateM.adaptExcept, failed]

theorem attempted_of_ok {action : HostM σ α} {start finish : World σ} {value : α}
    (done : action start = .ok value finish) :
    action.attempted (ε := ε) start = .ok (.ok value) finish := by
  rw [attempted, done]

theorem attempted_of_error {action : HostM σ α} {start finish : World σ} {error : HostError}
    (failed : action start = .error error finish) :
    action.attempted (ε := ε) start = .ok (.error error) finish := by
  rw [attempted, failed]

theorem required_pure (value : α) : (pure value : HostM σ α).required = pure value := rfl

theorem required_bind (action : HostM σ α) (next : α → HostM σ β) :
    (action >>= next).required = action.required >>= fun value => (next value).required := by
  funext world
  simp only [required, EStateM.adaptExcept, bind, EStateM.bind]
  cases action world with
  | ok value between => rfl
  | error error between => rfl

/-- What is made of a list item by item belongs to the items one by one. -/
theorem mapM_ok {make : α → HostM σ β} {items : List α} {made : List β} {world after : World σ}
    (done : items.mapM make world = .ok made after) :
    List.Forall₂ (fun item value => ∃ before later, make item before = .ok value later)
      items made := by
  induction items generalizing made world with
  | nil =>
    cases done
    exact .nil
  | cons item items ih =>
    rw [List.mapM_cons] at done
    obtain ⟨value, between, first, done⟩ := Steps.of_bind done
    obtain ⟨values, _, rest, done⟩ := Steps.of_bind done
    cases done
    exact .cons ⟨world, between, first⟩ (ih rest)

end CompiledScript.HostM
