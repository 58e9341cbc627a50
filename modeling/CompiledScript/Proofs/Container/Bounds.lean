import CompiledScript.Container.WireKind
import CompiledScript.Proofs.Literal.Bounds

/-!
# What the bounds let through

A value of any kind is written exactly if it is within the bounds: every text and every
table of it, every section of each of its blocks, and the depth of every literal in it.
Nothing else makes the writing fail, so a compiler that keeps to the bounds never meets
a failure, and a container that was written keeps to them.  Of a given value it can be
computed whether it is within them, without writing it.

The names of a table of locals are not among the texts.  Only the number of locals
reaches the wire, so a name may be longer than any text that is written.
-/

set_option autoImplicit false

namespace CompiledScript

open Encoder

variable {limits : Limits}

/-! ## Blocks and the entries of tables -/

/-- A block is within the bounds, with everything inside its literals. -/
def Block.Bounded (limits : Limits) (block : Block) : Prop :=
  block.OwnBounded limits ∧ ∀ literal ∈ block.literals, literal.Bounded limits

instance Block.Bounded.decidable (limits : Limits) (block : Block) :
    Decidable (block.Bounded limits) :=
  inferInstanceAs (Decidable (block.OwnBounded limits ∧
    ∀ literal ∈ block.literals, literal.Bounded limits))

theorem Block.succeeds_encode (words : limits.InWords) (block : Block) :
    (block.encode limits).Succeeds ↔ block.Bounded limits := by
  rw [encode, Block.succeeds_encodeWith words]
  exact and_congr_right fun _ => forall₂_congr fun literal _ => literal.succeeds_encode words

structure ProcedureEntry.Bounded (limits : Limits) (entry : ProcedureEntry) : Prop where
  name : entry.name.utf8ByteSize ≤ limits.maxStringLength
  scope : entry.scope.utf8ByteSize ≤ limits.maxStringLength
  arguments : entry.arguments.utf8ByteSize ≤ limits.maxStringLength
  body : entry.body.Bounded limits

instance ProcedureEntry.Bounded.decidable (limits : Limits) :
    DecidablePred (ProcedureEntry.Bounded limits) := fun entry =>
  decidable_of_iff
    (entry.name.utf8ByteSize ≤ limits.maxStringLength ∧
      entry.scope.utf8ByteSize ≤ limits.maxStringLength ∧
        entry.arguments.utf8ByteSize ≤ limits.maxStringLength ∧ entry.body.Bounded limits)
    ⟨fun ⟨name, scope, arguments, body⟩ => ⟨name, scope, arguments, body⟩,
      fun ⟨name, scope, arguments, body⟩ => ⟨name, scope, arguments, body⟩⟩

theorem ProcedureEntry.succeeds_encode (words : limits.InWords) (entry : ProcedureEntry) :
    (entry.encode limits).Succeeds ↔ entry.Bounded limits := by
  simp only [encode, succeeds_append, succeeds_text words, Block.succeeds_encode words]
  constructor
  · rintro ⟨⟨⟨name, scope⟩, arguments⟩, body⟩
    exact ⟨name, scope, arguments, body⟩
  · rintro ⟨name, scope, arguments, body⟩
    exact ⟨⟨⟨name, scope⟩, arguments⟩, body⟩

def ClassEntry.Bounded (limits : Limits) (entry : ClassEntry) : Prop :=
  entry.name.utf8ByteSize ≤ limits.maxStringLength

instance ClassEntry.Bounded.decidable (limits : Limits) :
    DecidablePred (ClassEntry.Bounded limits) := fun entry =>
  inferInstanceAs (Decidable (entry.name.utf8ByteSize ≤ limits.maxStringLength))

theorem ClassEntry.succeeds_encode (words : limits.InWords) (entry : ClassEntry) :
    (entry.encode limits).Succeeds ↔ entry.Bounded limits := by
  rw [encode, succeeds_append, succeeds_text words]
  exact and_iff_left (succeeds_word32 0)

structure MethodEntry.Bounded (limits : Limits) (entry : MethodEntry) : Prop where
  className : entry.className.utf8ByteSize ≤ limits.maxStringLength
  name : entry.name.utf8ByteSize ≤ limits.maxStringLength
  arguments : entry.arguments.utf8ByteSize ≤ limits.maxStringLength
  body : entry.body.Bounded limits

instance MethodEntry.Bounded.decidable (limits : Limits) :
    DecidablePred (MethodEntry.Bounded limits) := fun entry =>
  decidable_of_iff
    (entry.className.utf8ByteSize ≤ limits.maxStringLength ∧
      entry.name.utf8ByteSize ≤ limits.maxStringLength ∧
        entry.arguments.utf8ByteSize ≤ limits.maxStringLength ∧ entry.body.Bounded limits)
    ⟨fun ⟨className, name, arguments, body⟩ => ⟨className, name, arguments, body⟩,
      fun ⟨className, name, arguments, body⟩ => ⟨className, name, arguments, body⟩⟩

theorem MethodEntry.succeeds_encode (words : limits.InWords) (entry : MethodEntry) :
    (entry.encode limits).Succeeds ↔ entry.Bounded limits := by
  simp only [encode, succeeds_append, succeeds_text words, succeeds_byte, succeeds_word32,
    Block.succeeds_encode words, and_true]
  constructor
  · rintro ⟨⟨⟨className, name⟩, arguments⟩, body⟩
    exact ⟨className, name, arguments, body⟩
  · rintro ⟨className, name, arguments, body⟩
    exact ⟨⟨⟨className, name⟩, arguments⟩, body⟩

/-! ## Containers -/

/-- The entries of a section are no more than the bounds allow, and each is within them. -/
def SectionBounded {α : Type} (limits : Limits) (bounded : α → Prop) (entries : List α) : Prop :=
  entries.length ≤ limits.maxElements ∧ ∀ entry ∈ entries, bounded entry

instance SectionBounded.decidable {α : Type} (limits : Limits) (bounded : α → Prop)
    [DecidablePred bounded] (entries : List α) : Decidable (SectionBounded limits bounded entries) :=
  inferInstanceAs (Decidable (entries.length ≤ limits.maxElements ∧
    ∀ entry ∈ entries, bounded entry))

theorem succeeds_section (words : limits.InWords) {α : Type} {encode : α → Encoder}
    {bounded : α → Prop} (each : ∀ entry, (encode entry).Succeeds ↔ bounded entry)
    (what : String) (entries : List α) :
    (Encoder.table what limits.maxElements entries encode).Succeeds ↔
      SectionBounded limits bounded entries := by
  rw [succeeds_table words.maxElements]
  exact and_congr_right fun _ => forall₂_congr fun entry _ => each entry

theorem Header.succeeds_encode (header : Header) : header.encode.Succeeds := by
  simp [encode]

structure Container.Bounded (limits : Limits) (container : Container) : Prop where
  top : container.top.Bounded limits
  procedures : SectionBounded limits (ProcedureEntry.Bounded limits) container.procedures
  classes : SectionBounded limits (ClassEntry.Bounded limits) container.classes
  methods : SectionBounded limits (MethodEntry.Bounded limits) container.methods

instance Container.Bounded.decidable (limits : Limits) (container : Container) :
    Decidable (container.Bounded limits) :=
  decidable_of_iff
    (container.top.Bounded limits ∧
      SectionBounded limits (ProcedureEntry.Bounded limits) container.procedures ∧
        SectionBounded limits (ClassEntry.Bounded limits) container.classes ∧
          SectionBounded limits (MethodEntry.Bounded limits) container.methods)
    ⟨fun ⟨top, procedures, classes, methods⟩ => ⟨top, procedures, classes, methods⟩,
      fun ⟨top, procedures, classes, methods⟩ => ⟨top, procedures, classes, methods⟩⟩

theorem Container.succeeds_encode (words : limits.InWords) (container : Container) :
    (container.encode limits).Succeeds ↔ container.Bounded limits := by
  simp only [encode, succeeds_append, Block.succeeds_encode words,
    succeeds_section words (ProcedureEntry.succeeds_encode words),
    succeeds_section words (ClassEntry.succeeds_encode words),
    succeeds_section words (MethodEntry.succeeds_encode words)]
  constructor
  · rintro ⟨⟨⟨⟨-, top⟩, procedures⟩, classes⟩, methods⟩
    exact ⟨top, procedures, classes, methods⟩
  · rintro ⟨top, procedures, classes, methods⟩
    exact ⟨⟨⟨⟨Header.succeeds_encode _, top⟩, procedures⟩, classes⟩, methods⟩

/-! ## Every kind -/

namespace WireKind

/-- A value of a kind is within the bounds. -/
def Bounded (limits : Limits) : (kind : WireKind) → kind.Value → Prop
  | literal => Literal.Bounded limits
  | auxiliary => Auxiliary.Bounded limits
  | exceptionRange => fun _ => True
  | block => Block.Bounded limits
  | header => fun _ => True
  | procedure => ProcedureEntry.Bounded limits
  | className => ClassEntry.Bounded limits
  | classNames => SectionBounded limits (ClassEntry.Bounded limits)
  | method => MethodEntry.Bounded limits
  | container => Container.Bounded limits

/-- **A value is written exactly if it is within the bounds.** -/
theorem encodes_iff_bounded (words : limits.InWords) (kind : WireKind) (value : kind.Value) :
    (∃ bytes, (kind.encode limits value).bytes? = .ok bytes) ↔ kind.Bounded limits value := by
  change (kind.encode limits value).Succeeds ↔ _
  cases kind with
  | literal => exact Literal.succeeds_encode words value
  | auxiliary => exact Auxiliary.succeeds_encode words value
  | exceptionRange => exact iff_of_true (ExceptionRange.succeeds_encode value) trivial
  | block => exact Block.succeeds_encode words value
  | header => exact iff_of_true (Header.succeeds_encode value) trivial
  | procedure => exact ProcedureEntry.succeeds_encode words value
  | className => exact ClassEntry.succeeds_encode words value
  | classNames => exact succeeds_section words (ClassEntry.succeeds_encode words) _ value
  | method => exact MethodEntry.succeeds_encode words value
  | container => exact Container.succeeds_encode words value

/-- A map whose only key is a lambda that falls back to an empty list. -/
def deepKey : Literal :=
  .map [⟨.closure "a" [⟨"b", some (.list [])⟩] Block.empty, .text "c"⟩]

/-- Bounds that the block with such a map uses up, apart from the depth. -/
def scantBounds (levels : Nat) : Limits where
  maxStringLength := 1
  maxCodeLength := 0
  maxLiterals := 1
  maxAuxiliaries := 0
  maxExceptions := 0
  maxElements := 1
  maxDepth := levels

theorem scantBounds_inWords (levels : Nat) : (scantBounds levels).InWords := by
  constructor <;> simp [scantBounds]

/-- The key of the map, the value its parameter falls back to and the map itself make three
levels: with three the block is written and with two it is not. -/
theorem encodes_iff_bounded_deepKey :
    (∀ levels, (scantBounds levels).InWords) ∧
      (∃ bytes, (block.encode (scantBounds 3) { Block.empty with literals := [deepKey] }).bytes? =
        .ok bytes) ∧
      ¬ ∃ bytes, (block.encode (scantBounds 2) { Block.empty with literals := [deepKey] }).bytes? =
        .ok bytes := by
  refine ⟨scantBounds_inWords, ?_, ?_⟩
  · have bounded : Block.Bounded (scantBounds 3) { Block.empty with literals := [deepKey] } := by
      decide +kernel
    exact (encodes_iff_bounded (scantBounds_inWords 3) block _).mpr bounded
  · intro written
    have bounded := (encodes_iff_bounded (scantBounds_inWords 2) block _).mp written
    have shallow : deepKey.depth ≤ 2 :=
      (Literal.bounded_iff.mp (bounded.2 deepKey (List.mem_singleton_self _))).2
    revert shallow
    decide +kernel

/-- The names of locals are held to no bound: a block whose table of locals names a variable is
written although no text may have a single byte. -/
theorem written_beyond_bound_localName :
    let limits : Limits := { maxStringLength := 0 }
    let value : Block := { Block.empty with localTable := some [⟨"x", false⟩] }
    limits.InWords ∧ (∃ bytes, (block.encode limits value).bytes? = .ok bytes) ∧
      ¬ ∀ table ∈ value.localTable, ∀ slot ∈ table,
        slot.name.utf8ByteSize ≤ limits.maxStringLength := by
  refine ⟨by constructor <;> decide, ⟨_, rfl⟩, ?_⟩
  intro bounded
  have short := bounded _ rfl ⟨"x", false⟩ (List.mem_singleton_self _)
  revert short
  decide

end WireKind

end CompiledScript
