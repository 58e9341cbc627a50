import CompiledScript.Proofs.Container.Bounds
import CompiledScript.Proofs.Container.Equality
import CompiledScript.Proofs.Literal.Canonical

/-!
# One encoding for equal values

Equal values of every kind are written as the same bytes, or both refused.  What
this rests on has been settled for literals; blocks, records and containers only
put literals and plain fields one behind the other.

Equality does not see how the number of locals of a block was recorded, while
writing refuses a table of locals that is too long for a word.  The theorem
therefore speaks of values without such tables.
-/

set_option autoImplicit false

namespace CompiledScript

open Encoder

variable {limits : Limits}

/-! ## Values without overlong tables -/

/-- The tables of locals of a block and of all blocks inside it fit. -/
structure Block.TablesFit (block : Block) : Prop where
  here : block.TableFits
  below : ∀ literal ∈ block.literals, literal.TablesFit

/-- The tables of locals of all blocks in a container fit. -/
structure Container.TablesFit (container : Container) : Prop where
  top : container.top.TablesFit
  procedures : ∀ entry ∈ container.procedures, entry.body.TablesFit
  methods : ∀ entry ∈ container.methods, entry.body.TablesFit

/-- The tables of locals of all blocks in a value fit. -/
def WireKind.TablesFit : (kind : WireKind) → kind.Value → Prop
  | literal => Literal.TablesFit
  | block => Block.TablesFit
  | procedure => fun entry => entry.body.TablesFit
  | method => fun entry => entry.body.TablesFit
  | container => Container.TablesFit
  | auxiliary | exceptionRange | header | className | classNames => fun _ => True

/-! ## Equal values are written alike -/

theorem Literal.canonical_encode (limits : Limits) : Canonical (encode limits) :=
  canonical_within limits limits.maxDepth

theorem Block.entails_encode {left right : Block} (same : left.Alike Literal.Same right)
    (leftFits : left.TablesFit) (rightFits : right.TablesFit) :
    (left.encode limits).Entails (right.encode limits) := by
  have matched : left.Alike Literal.Matched right := same.mono fun one found other listed same =>
    ⟨same, leftFits.below one found, rightFits.below other listed⟩
  exact entails_encodeWith (Literal.canonical_encode limits) matched leftFits.here rightFits.here

theorem ProcedureEntry.entails_encode {left right : ProcedureEntry} (same : left.Same right)
    (leftFits : left.body.TablesFit) (rightFits : right.body.TablesFit) :
    (left.encode limits).Entails (right.encode limits) := by
  rw [encode, encode, same.name, same.scope, same.arguments]
  exact (Entails.refl _).append (Block.entails_encode same.body leftFits rightFits)

theorem MethodEntry.entails_encode {left right : MethodEntry} (same : left.Same right)
    (leftFits : left.body.TablesFit) (rightFits : right.body.TablesFit) :
    (left.encode limits).Entails (right.encode limits) := by
  rw [encode, encode, same.className, same.kind, same.name, same.arguments]
  exact (Entails.refl _).append (Block.entails_encode same.body leftFits rightFits)

theorem Container.entails_encode {left right : Container} (same : left.Same right)
    (leftFits : left.TablesFit) (rightFits : right.TablesFit) :
    (left.encode limits).Entails (right.encode limits) := by
  rw [encode, encode, same.header, same.classes]
  refine ((((Entails.refl _).append ?_).append (Entails.table ?_)).append (Entails.refl _)).append
    (Entails.table ?_)
  · exact Block.entails_encode same.top leftFits.top rightFits.top
  · exact Pairing.imp_of_mem same.procedures fun one found other listed same =>
      ProcedureEntry.entails_encode same (leftFits.procedures one found)
        (rightFits.procedures other listed)
  · exact Pairing.imp_of_mem same.methods fun one found other listed same =>
      MethodEntry.entails_encode same (leftFits.methods one found)
        (rightFits.methods other listed)

namespace WireKind

theorem entails_encode {kind : WireKind} {left right : kind.Value} (same : kind.Same left right)
    (leftFits : kind.TablesFit left) (rightFits : kind.TablesFit right) :
    (kind.encode limits left).Entails (kind.encode limits right) := by
  cases kind with
  | literal => exact Literal.canonical_encode limits left right ⟨same, leftFits, rightFits⟩
  | block => exact Block.entails_encode same leftFits rightFits
  | procedure => exact ProcedureEntry.entails_encode same leftFits rightFits
  | method => exact MethodEntry.entails_encode same leftFits rightFits
  | container => exact Container.entails_encode same leftFits rightFits
  | auxiliary | exceptionRange | header | className | classNames =>
    cases same
    exact .refl _

/-- **Equal values are written as the same bytes, or both refused**, however the maps inside
them were built and wherever the numbers of locals come from. -/
theorem encode_canonical {kind : WireKind} {left right : kind.Value}
    (leftWell : kind.WellFormed left) (rightWell : kind.WellFormed right)
    (leftFits : kind.TablesFit left) (rightFits : kind.TablesFit right)
    (same : kind.equal left right = true) (limits : Limits) (bytes : Bytes) :
    (kind.encode limits left).bytes? = .ok bytes ↔
      (kind.encode limits right).bytes? = .ok bytes := by
  have corresponds := (equal_iff_same leftWell rightWell).mp same
  constructor
  · exact entails_encode corresponds leftFits rightFits bytes
  · exact entails_encode corresponds.symm rightFits leftFits bytes

/-- A block with two nested maps in its pool, of which one is the key of the other, built in one
of two orders, and with one local that is recorded in one of two ways. -/
def arrangedBlock (swapped : Bool) : Block :=
  let inner : Literal :=
    .map (if swapped then [⟨.int 1, .text "a"⟩, ⟨.double 2, .list []⟩]
      else [⟨.double 2, .list []⟩, ⟨.int 1, .text "a"⟩])
  let outer : Literal :=
    .map (if swapped then [⟨.boolean true, .int 0⟩, ⟨inner, .int 3⟩]
      else [⟨inner, .int 3⟩, ⟨.boolean true, .int 0⟩])
  { Block.empty with
    literals := [.closure "::" [⟨"x", some outer⟩] Block.empty]
    compiledLocals := if swapped then some 1 else none
    localTable := if swapped then none else some [⟨"x", true⟩] }

theorem encode_canonical_arrangedBlock :
    block.equal (arrangedBlock false) (arrangedBlock true) = true ∧
      ∃ bytes, (block.encode {} (arrangedBlock false)).bytes? = .ok bytes ∧
        (block.encode {} (arrangedBlock true)).bytes? = .ok bytes := by
  have well : ∀ swapped, block.WellFormed (arrangedBlock swapped) := by decide +kernel
  have fits : ∀ swapped, block.TablesFit (arrangedBlock swapped) := by
    intro swapped
    constructor
    · cases swapped with
      | false => simp [arrangedBlock, Block.TableFits]
      | true => simp [arrangedBlock, Block.TableFits]
    · cases swapped with
      | false =>
        simp [arrangedBlock, Block.empty, Literal.TablesFit, Literal.TableFits, Block.TableFits]
      | true =>
        simp [arrangedBlock, Block.empty, Literal.TablesFit, Literal.TableFits, Block.TableFits]
  have same : block.equal (arrangedBlock false) (arrangedBlock true) = true := by decide +kernel
  obtain ⟨bytes, written⟩ :=
    (Block.succeeds_encode Limits.inWords_default (arrangedBlock false)).mpr (by decide +kernel)
  refine ⟨same, bytes, written, ?_⟩
  exact (encode_canonical (well false) (well true) (fits false) (fits true) same {} bytes).mp
    written

end WireKind

end CompiledScript
