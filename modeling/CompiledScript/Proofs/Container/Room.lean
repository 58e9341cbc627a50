import CompiledScript.Container.WireKind
import CompiledScript.Proofs.Wire.Room

/-!
# Writing containers into little room

No encoder of the format looks at the room of the sink it writes into, so a value
that is written into a sink with too little room leaves the front of its encoding
there and nothing else.  The keys of a map are encoded on their own before any of
them is written, which does not depend on the sink either.
-/

set_option autoImplicit false

namespace CompiledScript

open Encoder

variable {limits : Limits}

/-! ## Records without literals -/

namespace Auxiliary

theorem steady_slots (limits : Limits) (what : String) (slots : List UInt32) :
    (encodeSlots limits what slots).Steady :=
  steady_table steady_word32 what _ slots

theorem steady_jumps {κ : Type} [JumpKey κ] {encodeKey : κ → Encoder}
    (steady : ∀ key, (encodeKey key).Steady) (table : JumpTable κ) :
    (encodeJumps limits encodeKey table).Steady := by
  refine steady_table (fun entry => ?_) _ _ table.entries
  exact (steady entry.1).append (steady_word32 _)

theorem steady_loop (limits : Limits) (loop : ForeachLoop) : (encodeLoop limits loop).Steady :=
  (((steady_count _ _ _).append (steady_word32 _)).append (steady_word32 _)).append
    (steady_table (steady_slots limits _) _ _ _)

theorem steady_encode (limits : Limits) (record : Auxiliary) : (encode limits record).Steady := by
  refine (steady_word32 _).append ?_
  cases record with
  | textJumps table => exact steady_jumps (steady_text limits _) table
  | integerJumps table => exact steady_jumps steady_int64 table
  | dictUpdate slots => exact steady_slots limits _ slots
  | «foreach» loop => exact steady_loop limits loop

end Auxiliary

theorem ExceptionRange.steady_encode (range : ExceptionRange) : range.encode.Steady := by
  simp only [encode, Encoder.append_assoc]
  refine (steady_word32 _).append ((steady_word32 _).append ((steady_word32 _).append ?_))
  refine (steady_word32 _).append ((steady_word32 _).append ((steady_word32 _).append ?_))
  exact steady_word32 _

/-! ## Literals and blocks -/

theorem Block.steady_encodeWith {encodeLiteral : Literal → Encoder}
    (below : ∀ literal, (encodeLiteral literal).Steady) (block : Block) :
    (block.encodeWith limits encodeLiteral).Steady := by
  simp only [encodeWith, Encoder.append_assoc]
  refine (steady_count _ _ _).append ((steady_raw _).append ?_)
  refine (steady_table below _ _ _).append ?_
  refine (steady_table (Auxiliary.steady_encode limits) _ _ _).append ?_
  refine (steady_table ExceptionRange.steady_encode _ _ _).append ?_
  refine (steady_word32 _).append ((steady_word32 _).append ?_)
  split
  · exact steady_word32 _
  · exact steady_fail _

namespace Literal

theorem steady_map {encodeItem : Literal → Encoder} (below : ∀ literal, (encodeItem literal).Steady)
    (entries : List MapEntry) : (encodeMap limits encodeItem entries).Steady := by
  rw [encodeMap]
  split
  · exact steady_fail _
  · refine steady_table (fun entry => ?_) _ _ _
    exact (steady_raw entry.1).append (below entry.2)

theorem steady_parameter {encodeItem : Literal → Encoder}
    (below : ∀ literal, (encodeItem literal).Steady) (parameter : Parameter) :
    (encodeParameter limits encodeItem parameter).Steady := by
  refine ((steady_text limits _ _).append (steady_boolean _)).append ?_
  split
  · exact below _
  · exact steady_nothing

theorem steady_inside {inner : Option (Literal → Encoder)}
    (below : ∀ encodeItem ∈ inner, ∀ literal, (encodeItem literal).Steady)
    {body : (Literal → Encoder) → Encoder}
    (steady : ∀ encodeItem : Literal → Encoder, (∀ literal, (encodeItem literal).Steady) →
      (body encodeItem).Steady) :
    (encodeInside limits inner body).Steady := by
  cases inner with
  | none => exact steady_fail _
  | some encodeItem => exact steady encodeItem (below encodeItem rfl)

/-- A literal is written as far as the sink goes if the literals one level below are. -/
theorem steady_encodeWith {inner : Option (Literal → Encoder)}
    (below : ∀ encodeItem ∈ inner, ∀ literal, (encodeItem literal).Steady) (literal : Literal) :
    (encodeWith limits inner literal).Steady := by
  refine (steady_word32 _).append ?_
  cases literal with
  | int value => exact steady_int64 value
  | bigInt value =>
    simp only
    split
    · exact steady_word64 _
    · exact (steady_byte _).append (steady_bytes limits _ _)
  | boolean value => exact steady_boolean value
  | bytes value => exact steady_bytes limits _ value
  | map entries => exact steady_inside below fun encodeItem steady => steady_map steady entries
  | double bits => exact steady_word64 bits
  | list items => exact steady_inside below fun encodeItem steady => steady_table steady _ _ items
  | text value => exact steady_text limits _ value
  | closure scope parameters body =>
    refine steady_inside below fun encodeItem steady => ?_
    exact ((steady_text limits _ _).append (steady_table (steady_parameter steady) _ _ _)).append
      (Block.steady_encodeWith steady body)
  | block scope body =>
    refine steady_inside below fun encodeItem steady => ?_
    exact (steady_text limits _ _).append (Block.steady_encodeWith steady body)

theorem steady_within (limits : Limits) (levels : Nat) (literal : Literal) :
    (encodeWithin limits levels literal).Steady := by
  induction levels generalizing literal with
  | zero =>
    refine steady_encodeWith (fun encodeItem below => ?_) literal
    cases below
  | succ levels steady =>
    refine steady_encodeWith (fun encodeItem below => ?_) literal
    cases below
    exact steady

end Literal

theorem Literal.steady_encode (limits : Limits) (literal : Literal) :
    (literal.encode limits).Steady :=
  steady_within limits limits.maxDepth literal

theorem Block.steady_encode (limits : Limits) (block : Block) : (block.encode limits).Steady :=
  block.steady_encodeWith (Literal.steady_encode limits)

/-! ## Containers -/

theorem ProcedureEntry.steady_encode (limits : Limits) (entry : ProcedureEntry) :
    (entry.encode limits).Steady :=
  (((steady_text limits _ _).append (steady_text limits _ _)).append
    (steady_text limits _ _)).append (Block.steady_encode limits entry.body)

theorem ClassEntry.steady_encode (limits : Limits) (entry : ClassEntry) :
    (entry.encode limits).Steady :=
  (steady_text limits _ _).append (steady_word32 0)

theorem MethodEntry.steady_encode (limits : Limits) (entry : MethodEntry) :
    (entry.encode limits).Steady := by
  simp only [encode, Encoder.append_assoc]
  refine (steady_text limits _ _).append ((steady_byte _).append ?_)
  refine (steady_text limits _ _).append ((steady_text limits _ _).append ?_)
  exact (steady_word32 0).append (Block.steady_encode limits entry.body)

theorem Header.steady_encode (header : Header) : header.encode.Steady := by
  simp only [encode, Encoder.append_assoc]
  refine (steady_word32 _).append ((steady_word32 _).append ((steady_word32 _).append ?_))
  refine (steady_word64 _).append ((steady_word32 _).append ((steady_word32 _).append ?_))
  refine (steady_word32 _).append ((steady_word32 _).append ((steady_word32 _).append ?_))
  exact steady_word32 _

theorem Container.steady_encode (limits : Limits) (container : Container) :
    (container.encode limits).Steady := by
  simp only [encode, Encoder.append_assoc]
  refine (Header.steady_encode _).append ((Block.steady_encode limits _).append ?_)
  refine (steady_table (ProcedureEntry.steady_encode limits) _ _ _).append ?_
  refine (steady_table (ClassEntry.steady_encode limits) _ _ _).append ?_
  exact steady_table (MethodEntry.steady_encode limits) _ _ _

/-- **What reaches a bounded sink of a value of any kind is what reaches one without a bound, as
far as the sink goes.** -/
theorem WireKind.steady_encode (limits : Limits) (kind : WireKind) (value : kind.Value) :
    (kind.encode limits value).Steady := by
  cases kind with
  | literal => exact Literal.steady_encode limits value
  | auxiliary => exact Auxiliary.steady_encode limits value
  | exceptionRange => exact ExceptionRange.steady_encode value
  | block => exact Block.steady_encode limits value
  | header => exact Header.steady_encode value
  | procedure => exact ProcedureEntry.steady_encode limits value
  | className => exact ClassEntry.steady_encode limits value
  | classNames => exact steady_table (ClassEntry.steady_encode limits) _ _ value
  | method => exact MethodEntry.steady_encode limits value
  | container => exact Container.steady_encode limits value

/-- **A sink that is too small is left with the front of the output.**  A sink of some capacity
stores as many bytes of the whole output as it has room for.  If that is all of them, the writing
ends as it does in a sink without a bound, and otherwise the sink gives out. -/
theorem WireKind.encode_into_capacity (limits : Limits) (kind : WireKind) (value : kind.Value)
    (capacity : Nat) :
    let whole := (kind.encode limits value).into none
    let stored := (kind.encode limits value).into (some capacity)
    stored.bytes = whole.bytes.take (min capacity whole.bytes.length) ∧
      stored.failure =
        (if whole.bytes.length ≤ capacity then whole.failure else some .sinkFull) ∧
      FormatError.sinkFull.isTransfer = true := by
  intro whole stored
  have cut : stored = whole.cut capacity := kind.steady_encode limits value capacity
  rw [Written.cut] at cut
  by_cases fits : whole.bytes.length ≤ capacity
  · rw [if_pos fits] at cut
    rw [cut, if_pos fits, Nat.min_eq_right fits, List.take_length]
    exact ⟨rfl, rfl, rfl⟩
  · rw [if_neg fits] at cut
    rw [cut, if_neg fits, Nat.min_eq_left (by omega)]
    exact ⟨rfl, rfl, rfl⟩

end CompiledScript
