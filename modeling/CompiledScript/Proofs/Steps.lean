/-!
# Taking runs of actions apart

Decoders and actions on a host are sequences of steps that pass a state on, and a
failure ends the sequence where it arises.  A run that succeeded is thus a chain of successful
steps, which is how the other modules read it.
-/

set_option autoImplicit false

namespace CompiledScript

namespace Steps

variable {ε σ α β : Type}

/-- A sequence that succeeds is two steps that succeed. -/
theorem of_bind {first : EStateM ε σ α} {next : α → EStateM ε σ β} {start finish : σ} {value : β}
    (done : (first >>= next) start = .ok value finish) :
    ∃ middle between, first start = .ok middle between ∧
      next middle between = .ok value finish := by
  cases step : first start with
  | ok middle between =>
    refine ⟨middle, between, rfl, ?_⟩
    rw [← done]
    show _ = EStateM.bind first next start
    rw [EStateM.bind, step]
  | error error between =>
    have failed : (first >>= next) start = .error error between := by
      show EStateM.bind first next start = _
      rw [EStateM.bind, step]
    rw [failed] at done
    cases done

theorem bind_ok {first : EStateM ε σ α} {next : α → EStateM ε σ β} {start between : σ}
    {middle : α} (step : first start = .ok middle between) :
    (first >>= next) start = next middle between := by
  show EStateM.bind first next start = _
  rw [EStateM.bind, step]

/-- A failure ends the sequence where it arises. -/
theorem bind_error {first : EStateM ε σ α} {next : α → EStateM ε σ β} {start between : σ}
    {error : ε} (step : first start = .error error between) :
    (first >>= next) start = .error error between := by
  show EStateM.bind first next start = _
  rw [EStateM.bind, step]

/-- A sequence that fails does so in its first step or, when that has succeeded, in its second. -/
theorem of_bind_error {first : EStateM ε σ α} {next : α → EStateM ε σ β} {start finish : σ}
    {error : ε} (failed : (first >>= next) start = .error error finish) :
    first start = .error error finish ∨
      ∃ middle between, first start = .ok middle between ∧
        next middle between = .error error finish := by
  cases step : first start with
  | ok middle between =>
    rw [bind_ok step] at failed
    exact .inr ⟨middle, between, rfl, failed⟩
  | error stop between =>
    rw [bind_error step] at failed
    cases failed
    exact .inl rfl

theorem tryCatch_ok {body : EStateM ε σ α} {handler : ε → EStateM ε σ α} {start finish : σ}
    {value : α} (done : body start = .ok value finish) :
    tryCatch body handler start = .ok value finish := by
  show EStateM.tryCatch body handler start = _
  unfold EStateM.tryCatch
  rw [done]

/-- A failure is given to the handler. -/
theorem tryCatch_error {body : EStateM ε σ α} {handler : ε → EStateM ε σ α} {start between : σ}
    {error : ε} (step : body start = .error error between) :
    tryCatch body handler start = handler error between := by
  show EStateM.tryCatch body handler start = _
  unfold EStateM.tryCatch
  rw [step]
  rfl

/-- An attempt that succeeds has succeeded at once or in its handler. -/
theorem of_tryCatch {body : EStateM ε σ α} {handler : ε → EStateM ε σ α} {start finish : σ}
    {value : α} (done : tryCatch body handler start = .ok value finish) :
    body start = .ok value finish ∨
      ∃ error between, body start = .error error between ∧
        handler error between = .ok value finish := by
  change EStateM.tryCatch body handler start = _ at done
  unfold EStateM.tryCatch at done
  cases step : body start with
  | ok middle between =>
    rw [step] at done
    exact .inl done
  | error error between =>
    rw [step] at done
    exact .inr ⟨error, between, rfl, done⟩

end Steps

end CompiledScript
