import CompiledScript.Proofs.Container.Bounds
import CompiledScript.Proofs.Container.Header
import CompiledScript.Proofs.Container.Recovery
import CompiledScript.Proofs.Literal.Construction

/-!
# What the check of a header finds

A header is made for the block that a compiler gives, and it is checked against the block
that a reader gets.  The two blocks record their local slots in different ways: the
compiler's may have a count, a table, or only auxiliary records that refer to slots, while
the reader's always has the count that was written.

Whenever a block can be written its counters fit into a header, so one can be made, and
both are read back.  The check then finds nothing.  If another header takes the place of
this one, it finds the counters in which the two headers differ and no others.
-/

set_option autoImplicit false

namespace CompiledScript

variable {limits : Limits} {top : Block}

/-! ## Counters that fit into a header -/

/-- The lengths of the tables of a block are words, and its number of locals can be told. -/
structure Block.Counted (block : Block) : Prop where
  code : block.code.length < 4294967296
  literals : block.literals.length < 4294967296
  auxiliaries : block.auxiliaries.length < 4294967296
  exceptions : block.exceptions.length < 4294967296
  locals : ∃ count, block.checkedLocalCount = .ok count

/-- What a header repeats of a block is written with the block, so it fits if this succeeds. -/
theorem Block.counted_of_writes {bytes : Bytes} (written : (top.encode limits).Writes bytes) :
    top.Counted := by
  simp only [encode, encodeWith, Encoder.table, Encoder.append_assoc] at written
  obtain ⟨_, _, code, written, -⟩ := Encoder.writes_append.mp written
  obtain ⟨_, _, -, written, -⟩ := Encoder.writes_append.mp written
  obtain ⟨_, _, literals, written, -⟩ := Encoder.writes_append.mp written
  obtain ⟨_, _, -, written, -⟩ := Encoder.writes_append.mp written
  obtain ⟨_, _, auxiliaries, written, -⟩ := Encoder.writes_append.mp written
  obtain ⟨_, _, -, written, -⟩ := Encoder.writes_append.mp written
  obtain ⟨_, _, exceptions, written, -⟩ := Encoder.writes_append.mp written
  obtain ⟨_, _, -, written, -⟩ := Encoder.writes_append.mp written
  obtain ⟨_, _, -, written, -⟩ := Encoder.writes_append.mp written
  obtain ⟨_, _, -, locals, -⟩ := Encoder.writes_append.mp written
  refine ⟨?_, ?_, ?_, ?_, ?_⟩
  · exact (Encoder.writes_count.mp code).2.1
  · exact (Encoder.writes_count.mp literals).2.1
  · exact (Encoder.writes_count.mp auxiliaries).2.1
  · exact (Encoder.writes_count.mp exceptions).2.1
  · cases counted : top.checkedLocalCount with
    | ok count => exact ⟨count, rfl⟩
    | error error =>
      rw [counted] at locals
      exact (Encoder.not_writes_fail locals).elim

namespace Header

theorem wordCount_of_lt (what : String) {length : Nat} (word : length < 4294967296) :
    wordCount what length = .ok (UInt32.ofNat length) := by
  rw [wordCount, if_pos (by omega)]

/-- A header can be made for a block whose counters fit. -/
theorem forBlock_of_counted (counted : top.Counted) (runtime : RuntimeVersion) :
    ∃ header, forBlock top runtime = .ok header := by
  obtain ⟨count, locals⟩ := counted.locals
  simp only [forBlock, wordCount_of_lt _ counted.exceptions, wordCount_of_lt _ counted.literals,
    wordCount_of_lt _ counted.auxiliaries, locals]
  exact ⟨_, rfl⟩

/-- The check lists the counters that disagree, in their order. -/
theorem crossCheck_eq (header : Header) (block : Block) :
    header.crossCheck block =
      (Counter.all.filter fun counter =>
        decide (counter.ofHeader header ≠ counter.ofBlock block)).map fun counter =>
          ⟨counter, counter.ofHeader header, counter.ofBlock block⟩ := by
  rw [crossCheck, ← List.filterMap_eq_map, List.filterMap_filter]
  apply List.filterMap_congr
  intro counter _
  by_cases agree : counter.ofHeader header = counter.ofBlock block
  · simp [agree]
  · simp [agree]

/-- **The check of a header is exact.**  For every block that can be written and every version a
header can be made; both are read back, whatever follows them, and the check of the header against
the block that is read finds nothing.  Of any other header it finds exactly the counters in which it
differs from this one, in their order and each once, with what the header says and what the block
has. -/
theorem crossCheck_exact (built : top.Built) {bytes : Bytes}
    (written : (top.encode limits).bytes? = .ok bytes) (runtime : RuntimeVersion) :
    ∃ header headerBytes back,
      forBlock top runtime = .ok header ∧ header.encode.bytes? = .ok headerBytes ∧
        (∀ rest, decode (headerBytes ++ rest) = .ok header rest) ∧
          (∀ rest, Block.decode limits (bytes ++ rest) = .ok back rest) ∧
            header.crossCheck back = [] ∧
              ∀ changed : Header, changed.crossCheck back =
                ([.codeLength, .literals, .auxiliaries, .exceptions, .locals,
                  .maxStack].filter fun counter : Counter =>
                    decide (counter.ofHeader changed ≠ counter.ofHeader header)).map
                  fun counter => ⟨counter, counter.ofHeader changed, counter.ofHeader header⟩ := by
  have counted := Block.counted_of_writes written
  obtain ⟨header, made⟩ := forBlock_of_counted counted runtime
  obtain ⟨magic, format, -⟩ := forBlock_ok made
  obtain ⟨headerBytes, headerWritten⟩ := succeeds_encode header
  obtain ⟨found, headerRead, rfl⟩ := restores_encode magic format headerBytes headerWritten
  obtain ⟨back, read, alike⟩ := Block.restores_encode built.wellFormed bytes written
  have agree (counter : Counter) : counter.ofBlock back = counter.ofHeader found := by
    rw [← Counter.ofBlock_alike alike]
    exact (counter_forBlock made counted.code counter).symm
  refine ⟨found, headerBytes, back, made, headerWritten, headerRead, read, ?_, ?_⟩
  · apply crossCheck_eq_nil_iff.mpr
    intro counter
    exact (agree counter).symm
  · intro changed
    rw [crossCheck_eq]
    simp only [agree]
    rfl

/-- A block whose number of locals is known only from the slots that a dictionary update touches. -/
def slottedBlock : Block where
  code := [1, 2]
  literals := [.list [.int 1, .text "a"]]
  auxiliaries := [.dictUpdate [4, 1]]
  exceptions := []
  maxStack := 3
  compiledLocals := none
  localTable := none

/-- Two counters of its header that are changed are the two that the check finds. -/
theorem crossCheck_exact_slotted :
    ∃ bytes header back, (slottedBlock.encode {}).bytes? = .ok bytes ∧
      forBlock slottedBlock ⟨9, 1⟩ = .ok header ∧
        (∀ rest, Block.decode {} (bytes ++ rest) = .ok back rest) ∧
          header.crossCheck back = [] ∧
            { header with locals := 4, codeLength := 7 }.crossCheck back =
              [⟨.codeLength, 7, 2⟩, ⟨.locals, 4, 5⟩] := by
  have built : slottedBlock.Built := by
    simp only [Block.Built, slottedBlock, List.forall_mem_cons]
    refine ⟨.list ?_, List.forall_mem_nil _⟩
    simp only [List.forall_mem_cons]
    exact ⟨.scalar trivial, .scalar trivial, List.forall_mem_nil _⟩
  obtain ⟨bytes, written⟩ :=
    (Block.succeeds_encode Limits.inWords_default slottedBlock).mpr (by decide +kernel)
  obtain ⟨header, _, back, made, -, -, read, silent, changes⟩ :=
    crossCheck_exact built written ⟨9, 1⟩
  refine ⟨bytes, header, back, written, made, read, silent, ?_⟩
  rw [changes]
  cases made
  rfl

end Header

end CompiledScript
