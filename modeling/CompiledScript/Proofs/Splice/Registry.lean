import CompiledScript.Splice.Registry

/-!
# Registries as queues

All bodies of a registry stand in one list, but for each key they behave as a
queue of its own: what is handed out for a key is the first of its bodies, the
others of its bodies move up, and the bodies of other keys stay as they are.
-/

set_option autoImplicit false

namespace CompiledScript.Registry

variable {κ : Type} [DecidableEq κ]

/-! ## Erasing the oldest body -/

theorem bodies_eraseOldest_self (registry : Registry κ) (key : κ) :
    (registry.eraseOldest key).bodies key = (registry.bodies key).tail := by
  obtain ⟨entries⟩ := registry
  simp only [eraseOldest, bodies]
  induction entries with
  | nil => rfl
  | cons entry entries ih =>
    by_cases same : entry.1 = key
    · simp [same]
    · simp [same, ih]

theorem bodies_eraseOldest_of_ne (registry : Registry κ) {key other : κ}
    (different : other ≠ key) :
    (registry.eraseOldest key).bodies other = registry.bodies other := by
  obtain ⟨entries⟩ := registry
  simp only [eraseOldest, bodies]
  induction entries with
  | nil => rfl
  | cons entry entries ih =>
    by_cases same : entry.1 = key
    · simp [same, different.symm]
    · by_cases asked : entry.1 = other
      · simp [asked, different, ih]
      · simp [same, asked, ih]

/-! ## Asking for a body -/

/-- A body is handed out if it is the oldest of its key and has the argument specification that
was asked for. -/
theorem take_body?_iff {registry : Registry κ} {key : κ} {arguments : String}
    {body : PrecompiledBody} :
    (registry.take key arguments).1.body? = some body ↔
      (registry.bodies key).head? = some body ∧ body.arguments = arguments := by
  rw [take, oldest?_eq_head?]
  cases (registry.bodies key).head? with
  | none => simp [Delivery.body?]
  | some oldest =>
    by_cases same : oldest.arguments = arguments
    · simp only [if_pos same, Delivery.body?, Option.some.injEq]
      constructor
      · rintro rfl
        exact ⟨rfl, same⟩
      · exact fun found => found.1
    · simp only [if_neg same, Delivery.body?, Option.some.injEq]
      constructor
      · intro impossible
        cases impossible
      · rintro ⟨rfl, matching⟩
        exact (same matching).elim

/-- If a body is handed out, exactly this body leaves the registry. -/
theorem take_of_some {registry : Registry κ} {key : κ} {arguments : String}
    {body : PrecompiledBody} (handed : (registry.take key arguments).1.body? = some body) :
    (registry.take key arguments).2 = registry.eraseOldest key := by
  rw [take_body?_iff, ← oldest?_eq_head?] at handed
  rw [take, handed.1]
  simp only [if_pos handed.2]

/-- If no body is handed out, the registry stays as it is. -/
theorem take_of_none {registry : Registry κ} {key : κ} {arguments : String}
    (handed : (registry.take key arguments).1.body? = none) :
    (registry.take key arguments).2 = registry := by
  rw [take] at handed ⊢
  cases oldest : registry.oldest? key with
  | none => rfl
  | some body =>
    simp only [oldest] at handed ⊢
    split at handed
    · cases handed
    · rename_i differ
      rw [if_neg differ]

/-- The first body of all is handed out to whoever asks for it. -/
theorem take_first (entry : κ × PrecompiledBody) (entries : List (κ × PrecompiledBody)) :
    (⟨entry :: entries⟩ : Registry κ).take entry.1 entry.2.arguments =
      (.substituted entry.2, ⟨entries⟩) := by
  simp [take, oldest?, eraseOldest]

/-- Nothing is handed out for a key that has no body. -/
theorem take_absent {registry : Registry κ} {key : κ}
    (absent : ∀ entry ∈ registry.entries, entry.1 ≠ key) (arguments : String) :
    registry.take key arguments = (.notFound, registry) := by
  have none : registry.oldest? key = none := by
    rw [oldest?, Option.map_eq_none_iff, List.find?_eq_none]
    intro entry listed
    rw [beq_iff_eq]
    exact absent entry listed
  rw [take, none]

/-- What was handed out, put in front of what is left, is what was there. -/
theorem bodies_take (registry : Registry κ) (key other : κ) (arguments : String) :
    (if key = other then (registry.take key arguments).1.body?.toList else []) ++
        (registry.take key arguments).2.bodies other =
      registry.bodies other := by
  cases handed : (registry.take key arguments).1.body? with
  | none =>
    rw [take_of_none handed]
    simp
  | some body =>
    rw [take_of_some handed]
    by_cases same : key = other
    · subst same
      obtain ⟨first, -⟩ := take_body?_iff.mp handed
      obtain ⟨rest, whole⟩ := List.head?_eq_some_iff.mp first
      rw [if_pos rfl, bodies_eraseOldest_self, whole]
      rfl
    · rw [if_neg same, bodies_eraseOldest_of_ne registry (Ne.symm same), List.nil_append]

end CompiledScript.Registry
