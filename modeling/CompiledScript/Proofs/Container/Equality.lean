import CompiledScript.Container.WireKind
import CompiledScript.Proofs.Literal.Equivalence

/-!
# Equality of records and containers

Records and containers are compared field by field, and their blocks by
observational equality.  Among well-formed values this comparison is spelled out
here as a relation that says of each field how it corresponds, and the relation
is what the theorems on encodings work with.
-/

set_option autoImplicit false

namespace CompiledScript

/-! ## Well-formed values -/

/-- No map in a container has two equal keys. -/
structure Container.WellFormed (container : Container) : Prop where
  top : container.top.WellFormed
  procedures : ∀ entry ∈ container.procedures, entry.body.WellFormed
  methods : ∀ entry ∈ container.methods, entry.body.WellFormed

instance Container.WellFormed.decidable (container : Container) : Decidable container.WellFormed :=
  decidable_of_iff
    (container.top.WellFormed ∧ (∀ entry ∈ container.procedures, entry.body.WellFormed) ∧
      ∀ entry ∈ container.methods, entry.body.WellFormed)
    ⟨fun ⟨top, procedures, methods⟩ => ⟨top, procedures, methods⟩,
      fun ⟨top, procedures, methods⟩ => ⟨top, procedures, methods⟩⟩

/-- No map in a value has two equal keys. -/
def WireKind.WellFormed : (kind : WireKind) → kind.Value → Prop
  | literal => Literal.WellFormed
  | block => Block.WellFormed
  | procedure => fun entry => entry.body.WellFormed
  | method => fun entry => entry.body.WellFormed
  | container => Container.WellFormed
  | auxiliary | exceptionRange | header | className | classNames => fun _ => True

instance WireKind.WellFormed.decidable :
    (kind : WireKind) → (value : kind.Value) → Decidable (kind.WellFormed value)
  | literal => Literal.WellFormed.decidable
  | block => Block.WellFormed.decidable
  | procedure => fun entry => Block.WellFormed.decidable entry.body
  | method => fun entry => Block.WellFormed.decidable entry.body
  | container => Container.WellFormed.decidable
  | auxiliary | exceptionRange | header | className | classNames => fun _ => .isTrue trivial

/-! ## How equal values correspond -/

/-- Equal procedures, with nothing left open about their blocks. -/
structure ProcedureEntry.Same (left right : ProcedureEntry) : Prop where
  name : left.name = right.name
  scope : left.scope = right.scope
  arguments : left.arguments = right.arguments
  body : left.body.Alike Literal.Same right.body

/-- Equal class members, with nothing left open about their blocks. -/
structure MethodEntry.Same (left right : MethodEntry) : Prop where
  className : left.className = right.className
  kind : left.kind = right.kind
  name : left.name = right.name
  arguments : left.arguments = right.arguments
  body : left.body.Alike Literal.Same right.body

/-- Equal containers, with nothing left open about their blocks. -/
structure Container.Same (left right : Container) : Prop where
  header : left.header = right.header
  top : left.top.Alike Literal.Same right.top
  procedures : List.Forall₂ ProcedureEntry.Same left.procedures right.procedures
  classes : left.classes = right.classes
  methods : List.Forall₂ MethodEntry.Same left.methods right.methods

/-- Equal values, with nothing left open about their blocks. -/
def WireKind.Same : (kind : WireKind) → kind.Value → kind.Value → Prop
  | literal => Literal.Same
  | block => Block.Alike Literal.Same
  | procedure => ProcedureEntry.Same
  | method => MethodEntry.Same
  | container => Container.Same
  | auxiliary | exceptionRange | header | className | classNames => Eq

/-! ## What the comparison finds -/

theorem Block.equal_iff_same {left right : Block} (leftWell : left.WellFormed)
    (rightWell : right.WellFormed) :
    (left == right) = true ↔ left.Alike Literal.Same right :=
  Block.equal_iff_alike leftWell rightWell

theorem ProcedureEntry.equal_iff_same {left right : ProcedureEntry}
    (leftWell : left.body.WellFormed) (rightWell : right.body.WellFormed) :
    (left == right) = true ↔ left.Same right := by
  show (left.name == right.name && left.scope == right.scope &&
      left.arguments == right.arguments && left.body == right.body) = true ↔ _
  simp only [Bool.and_eq_true, beq_iff_eq, Block.equal_iff_same leftWell rightWell]
  constructor
  · rintro ⟨⟨⟨name, scope⟩, arguments⟩, body⟩
    exact ⟨name, scope, arguments, body⟩
  · rintro ⟨name, scope, arguments, body⟩
    exact ⟨⟨⟨name, scope⟩, arguments⟩, body⟩

theorem MethodEntry.equal_iff_same {left right : MethodEntry} (leftWell : left.body.WellFormed)
    (rightWell : right.body.WellFormed) : (left == right) = true ↔ left.Same right := by
  show (left.className == right.className && left.kind == right.kind && left.name == right.name &&
      left.arguments == right.arguments && left.body == right.body) = true ↔ _
  simp only [Bool.and_eq_true, beq_iff_eq, Block.equal_iff_same leftWell rightWell]
  constructor
  · rintro ⟨⟨⟨⟨className, kind⟩, name⟩, arguments⟩, body⟩
    exact ⟨className, kind, name, arguments, body⟩
  · rintro ⟨className, kind, name, arguments, body⟩
    exact ⟨⟨⟨⟨className, kind⟩, name⟩, arguments⟩, body⟩

theorem Container.equal_iff_same {left right : Container} (leftWell : left.WellFormed)
    (rightWell : right.WellFormed) : (left == right) = true ↔ left.Same right := by
  have procedures : (left.procedures == right.procedures) = true ↔
      List.Forall₂ ProcedureEntry.Same left.procedures right.procedures := by
    rw [Pairing.beq_iff]
    refine Pairing.congr fun one found other listed => ?_
    exact ProcedureEntry.equal_iff_same (leftWell.procedures one found)
      (rightWell.procedures other listed)
  have methods : (left.methods == right.methods) = true ↔
      List.Forall₂ MethodEntry.Same left.methods right.methods := by
    rw [Pairing.beq_iff]
    refine Pairing.congr fun one found other listed => ?_
    exact MethodEntry.equal_iff_same (leftWell.methods one found) (rightWell.methods other listed)
  show (left.header == right.header && left.top == right.top &&
      left.procedures == right.procedures && left.classes == right.classes &&
      left.methods == right.methods) = true ↔ _
  simp only [Bool.and_eq_true, beq_iff_eq, Block.equal_iff_same leftWell.top rightWell.top,
    procedures, methods]
  constructor
  · rintro ⟨⟨⟨⟨header, top⟩, procedures⟩, classes⟩, methods⟩
    exact ⟨header, top, procedures, classes, methods⟩
  · rintro ⟨header, top, procedures, classes, methods⟩
    exact ⟨⟨⟨⟨header, top⟩, procedures⟩, classes⟩, methods⟩

/-- **Among well-formed values of every kind, equality is correspondence part by part.** -/
theorem WireKind.equal_iff_same {kind : WireKind} {left right : kind.Value}
    (leftWell : kind.WellFormed left) (rightWell : kind.WellFormed right) :
    kind.equal left right = true ↔ kind.Same left right := by
  cases kind with
  | literal => exact ⟨fun same => ⟨leftWell, rightWell, same⟩, fun same => same.2.2⟩
  | block => exact Block.equal_iff_same leftWell rightWell
  | procedure => exact ProcedureEntry.equal_iff_same leftWell rightWell
  | method => exact MethodEntry.equal_iff_same leftWell rightWell
  | container => exact Container.equal_iff_same leftWell rightWell
  | auxiliary | exceptionRange | header | className | classNames => exact beq_iff_eq

/-! ## Symmetry -/

theorem Block.Alike.same_symm {left right : Block} (alike : left.Alike Literal.Same right) :
    right.Alike Literal.Same left :=
  alike.symm Literal.equalityOn_wellFormed.similar_symm

theorem ProcedureEntry.Same.symm {left right : ProcedureEntry} (same : left.Same right) :
    right.Same left :=
  ⟨same.name.symm, same.scope.symm, same.arguments.symm, same.body.same_symm⟩

theorem MethodEntry.Same.symm {left right : MethodEntry} (same : left.Same right) :
    right.Same left :=
  ⟨same.className.symm, same.kind.symm, same.name.symm, same.arguments.symm, same.body.same_symm⟩

theorem Container.Same.symm {left right : Container} (same : left.Same right) :
    right.Same left where
  header := same.header.symm
  top := same.top.same_symm
  procedures := Pairing.swap same.procedures fun _ _ => ProcedureEntry.Same.symm
  classes := same.classes.symm
  methods := Pairing.swap same.methods fun _ _ => MethodEntry.Same.symm

theorem WireKind.Same.symm {kind : WireKind} {left right : kind.Value}
    (same : kind.Same left right) : kind.Same right left := by
  cases kind with
  | literal => exact Literal.equalityOn_wellFormed.similar_symm _ _ same
  | block => exact Block.Alike.same_symm same
  | procedure => exact ProcedureEntry.Same.symm same
  | method => exact MethodEntry.Same.symm same
  | container => exact Container.Same.symm same
  | auxiliary | exceptionRange | header | className | classNames => exact Eq.symm same

/-! ## Values that correspond to well-formed ones -/

theorem Block.Alike.wellFormed {left right : Block} (alike : left.Alike Literal.Same right) :
    right.WellFormed := by
  intro literal listed
  obtain ⟨_, _, same⟩ := Pairing.origin alike.literals listed
  exact same.2.1

theorem Container.Same.wellFormed {left right : Container} (same : left.Same right) :
    right.WellFormed where
  top := same.top.wellFormed
  procedures entry listed := by
    obtain ⟨_, _, alike⟩ := Pairing.origin same.procedures listed
    exact alike.body.wellFormed
  methods entry listed := by
    obtain ⟨_, _, alike⟩ := Pairing.origin same.methods listed
    exact alike.body.wellFormed

/-- What corresponds to anything is well formed. -/
theorem WireKind.Same.wellFormed {kind : WireKind} {left right : kind.Value}
    (same : kind.Same left right) : kind.WellFormed right := by
  cases kind with
  | literal => exact same.2.1
  | block => exact Block.Alike.wellFormed same
  | procedure => exact (ProcedureEntry.Same.body same).wellFormed
  | method => exact (MethodEntry.Same.body same).wellFormed
  | container => exact Container.Same.wellFormed same
  | auxiliary | exceptionRange | header | className | classNames => exact trivial

end CompiledScript
