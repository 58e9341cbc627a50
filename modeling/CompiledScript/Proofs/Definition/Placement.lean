import CompiledScript.Definition.Scan

/-!
# Where scanned definitions are compiled

The namespace that a scan records for a definition follows from what it defines:
a procedure is compiled against the namespace part of its name, and a class member
against its class.  So a definition is known by its name, kind, arguments and body
alone, and nothing in the place where it stood in the script is missing.
-/

set_option autoImplicit false

namespace CompiledScript

/-- A definition stands in the namespace that follows from what it defines. -/
def Definition.Placed (definition : Definition) : Prop :=
  definition.scope =
    match definition.kind with
    | .procedure => Name.namespaceOf definition.name
    | .member _ className => className

/-- A finding that is a placed definition, or no definition. -/
def Finding.Placed : Finding → Prop
  | .definition found => found.Placed
  | .classNamed _ => True

namespace Scan

theorem placed_procedureFindings (command : Command) (scope : String) (line : Nat) :
    ∀ finding ∈ procedureFindings command scope line, finding.Placed := by
  intro finding found
  rw [procedureFindings] at found
  split at found
  · rw [List.mem_singleton.mp found]
    rfl
  · cases found

theorem placed_memberFindings (dialect : Dialect) (command : Command) (scope : String)
    (line : Nat) : ∀ finding ∈ memberFindings dialect command scope line, finding.Placed := by
  intro finding found
  rw [memberFindings] at found
  split at found
  · cases found
  · split at found
    · cases found
    · rcases List.mem_cons.mp found with rfl | found
      · trivial
      · rw [List.mem_singleton.mp found]
        rfl

/-- What a command amounts to is placed if what namespace bodies amount to is. -/
theorem placed_commandFindings {dialect : Dialect} {ends : List Nat}
    {scanBody : String → Nat → String → List Finding}
    (placed : ∀ body base scope, ∀ finding ∈ scanBody body base scope, finding.Placed)
    (base : Nat) (scope : String) (command : Command) :
    ∀ finding ∈ commandFindings dialect ends scanBody base scope command, finding.Placed := by
  intro finding found
  rw [commandFindings] at found
  split at found
  · cases found
  · split at found
    · exact placed_procedureFindings _ _ _ finding found
    · split at found
      · exact placed_memberFindings _ _ _ _ finding found
      · split at found
        · cases found
        · split at found
          · split at found
            · split at found
              · exact placed _ _ _ finding found
              · cases found
            · cases found
          · split at found
            · split at found
              · rw [List.mem_singleton.mp found]
                trivial
              · cases found
            · cases found

theorem placed_scriptFindings (dialect : Dialect) (ends : List Nat) (levels : Nat) :
    ∀ script base scope, ∀ finding ∈ scriptFindings dialect ends levels script base scope,
      finding.Placed := by
  induction levels with
  | zero =>
    intro script base scope finding found
    cases found
  | succ levels ih =>
    intro script base scope finding found
    rw [scriptFindings] at found
    obtain ⟨parsed, -, found⟩ := List.mem_flatMap.mp found
    cases parsed with
    | error error => cases found
    | ok command => exact placed_commandFindings ih base scope command finding found

end Scan

/-- **Every definition of a scan is placed.** -/
theorem scan_placed {source : String} {dialect : Dialect} {definition : Definition}
    (found : definition ∈ (scan source dialect).definitions) : definition.Placed := by
  obtain ⟨finding, listed, same⟩ := List.mem_filterMap.mp found
  have placed := Scan.placed_scriptFindings _ _ _ _ _ _ finding listed
  cases finding with
  | definition other =>
    cases same
    exact placed
  | classNamed name => cases same

end CompiledScript
