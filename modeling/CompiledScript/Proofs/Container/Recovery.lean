import CompiledScript.Proofs.Container.Bounds
import CompiledScript.Proofs.Container.Equality
import CompiledScript.Proofs.Literal.Recovery

/-!
# Recovering containers

Every kind of value that is written is read back, and what is read is equal to
what was written.  For records this goes field by field from the recovery of
blocks; a header is read as it was written if it names the format that the reader
expects, and a container if the reader may moreover load what its producer wrote.

The main theorem is said once for all kinds.  It speaks about inputs that go on
behind the value, so it also says that a reader takes exactly the bytes that were
written.
-/

set_option autoImplicit false

namespace CompiledScript

open Decoder

variable {limits : Limits}

/-! ## Records with blocks -/

theorem ProcedureEntry.restores_encode {entry : ProcedureEntry} (well : entry.body.WellFormed) :
    (decode limits).Restores (entry.encode limits) entry.Same := by
  simp only [encode, Encoder.append_assoc]
  refine (restores_text _).exact ((restores_text _).exact ((restores_text _).exact ?_))
  exact (Block.restores_encode well).last fun body alike => ⟨rfl, rfl, rfl, alike⟩

theorem ClassEntry.restores_encode (entry : ClassEntry) :
    (decode limits).Restores (entry.encode limits) (· = entry) := by
  refine (restores_text _).exact ?_
  have superclasses : (table "superclasses" limits.maxElements
      (Decoder.text limits "superclass name")).Restores (Encoder.word32 0) (· = []) := by
    intro bytes written
    rw [Encoder.writes_raw.mp written]
    have read : (table "superclasses" limits.maxElements
        (Decoder.text limits "superclass name")).Reads (Bytes.ofNat 4 ([] : List Bytes).length ++
          ([] : List Bytes).flatten) [] :=
      reads_table (Nat.zero_le _) (by decide) .nil
    exact ⟨[], read, rfl⟩
  exact superclasses.last fun _ _ => rfl

theorem MethodEntry.restores_encode {entry : MethodEntry} (well : entry.body.WellFormed) :
    (decode limits).Restores (entry.encode limits) entry.Same := by
  simp only [encode, Encoder.append_assoc]
  refine (restores_text _).exact ((restores_byte _).exact ?_)
  rw [MethodKind.ofCode?_code]
  refine (restores_text _).exact ((restores_text _).exact ?_)
  refine restores_zeroCount.exact (.skip (reads_run []) ?_)
  exact (Block.restores_encode well).last fun body alike => ⟨rfl, rfl, rfl, rfl, alike⟩

/-! ## Headers and containers -/

namespace Header

theorem restores_encode {header : Header} (magic : header.magic = containerMagic)
    (format : header.format = formatVersion) :
    decode.Restores header.encode (· = header) := by
  simp only [encode, Encoder.append_assoc]
  refine (restores_word32 _).exact ?_
  rw [if_neg (not_not.mpr magic)]
  refine (restores_word32 _).exact ?_
  rw [if_neg (not_not.mpr format)]
  refine (restores_word32 _).exact ((restores_word64 _).exact ?_)
  refine (restores_word32 _).exact ((restores_word32 _).exact ((restores_word32 _).exact ?_))
  refine (restores_word32 _).exact ((restores_word32 _).exact ?_)
  refine (restores_word32 _).last fun maxStack same => ?_
  rw [same, RuntimeVersion.unpack_pack]

/-- A header is read for a runtime that may load what its producer wrote. -/
theorem restores_encode_for {header : Header} {running : RuntimeVersion}
    (magic : header.magic = containerMagic) (format : header.format = formatVersion)
    (loads : running.canLoad header.runtime = true) :
    (decodeFor running).Restores header.encode (· = header) := by
  intro bytes written
  obtain ⟨back, read, rfl⟩ := restores_encode magic format bytes written
  refine ⟨back, read.map ?_, rfl⟩
  simp only [checkRuntime, loads, if_true]
  exact .pure back

end Header

namespace Container

/-- A container of the expected format, from a producer whose containers the running runtime
may load. -/
structure Accepted (running : RuntimeVersion) (container : Container) : Prop where
  magic : container.header.magic = containerMagic
  format : container.header.format = formatVersion
  loads : running.canLoad container.header.runtime = true

/-- **Every well-formed container is read back as one that is equal to it.** -/
theorem restores_encode {running : RuntimeVersion} {container : Container}
    (well : container.WellFormed) (accepted : container.Accepted running) :
    (decode limits running).Restores (container.encode limits) container.Same := by
  simp only [encode, Encoder.append_assoc]
  refine (Header.restores_encode_for accepted.magic accepted.format accepted.loads).exact ?_
  refine (Block.restores_encode well.top).bind fun top sameTop => ?_
  refine (restores_table fun entry found =>
    ProcedureEntry.restores_encode (well.procedures entry found)).bind
    fun procedures sameProcedures => ?_
  refine (restores_table_exact _ fun entry _ => ClassEntry.restores_encode entry).exact ?_
  refine (restores_table fun entry found =>
    MethodEntry.restores_encode (well.methods entry found)).last fun methods sameMethods => ?_
  exact ⟨rfl, sameTop, sameProcedures, rfl, sameMethods⟩

end Container

/-! ## Every kind -/

namespace WireKind

/-- A reader of the given version goes on from the header in a value, if there is one. -/
def Accepted (running : Option RuntimeVersion) : (kind : WireKind) → kind.Value → Prop
  | header => fun header =>
    header.magic = containerMagic ∧ header.format = formatVersion ∧
      ∀ version ∈ running, version.canLoad header.runtime = true
  | container => Container.Accepted (running.getD ⟨1, 0⟩)
  | literal | auxiliary | exceptionRange | block | procedure | className | classNames | method =>
    fun _ => True

theorem restores_encode (limits : Limits) (running : Option RuntimeVersion) (kind : WireKind)
    {value : kind.Value} (well : kind.WellFormed value) (accepted : kind.Accepted running value) :
    (kind.decode limits running).Restores (kind.encode limits value) (kind.Same value) := by
  cases kind with
  | literal => exact Literal.recovers_encode limits value well
  | auxiliary => exact (Auxiliary.restores_encode value).weaken fun _ same => same.symm
  | exceptionRange => exact (ExceptionRange.restores_encode value).weaken fun _ same => same.symm
  | block => exact Block.restores_encode well
  | header =>
    obtain ⟨magic, format, loads⟩ := accepted
    cases running with
    | none => exact (Header.restores_encode magic format).weaken fun _ same => same.symm
    | some version =>
      refine (Header.restores_encode_for magic format ?_).weaken fun _ same => same.symm
      exact loads version rfl
  | procedure => exact ProcedureEntry.restores_encode well
  | className => exact (ClassEntry.restores_encode value).weaken fun _ same => same.symm
  | classNames =>
    refine (restores_table_exact value fun entry _ => ?_).weaken fun _ same => same.symm
    exact ClassEntry.restores_encode entry
  | method => exact MethodEntry.restores_encode well
  | container => exact Container.restores_encode well accepted

/-- **Reading undoes writing for every kind of value.**  What a value was written as is read as a
value equal to it, whatever follows, and nothing of what follows is taken. -/
theorem decode_written {limits : Limits} {running : Option RuntimeVersion} {kind : WireKind}
    {value : kind.Value} {bytes : Bytes} (well : kind.WellFormed value)
    (accepted : kind.Accepted running value)
    (written : (kind.encode limits value).bytes? = .ok bytes) :
    ∃ back, (∀ rest, kind.decode limits running (bytes ++ rest) = .ok back rest) ∧
      kind.equal value back = true ∧ kind.equal back value = true := by
  obtain ⟨back, read, same⟩ := kind.restores_encode limits running well accepted bytes written
  refine ⟨back, read, ?_, ?_⟩
  · exact (equal_iff_same well same.wellFormed).mpr same
  · exact (equal_iff_same same.wellFormed well).mpr same.symm

/-- A container with a map as the key of a map, out of order, below a lambda in its pool. -/
def nestedContainer : Container :=
  let key : Literal := .map [⟨.int 2, .double 5⟩, ⟨.int 1, .list []⟩]
  let pooled : Literal :=
    .map [⟨.text "b", .bigInt 9223372036854775808⟩, ⟨key, .bigInt (-300)⟩]
  let lambda : Literal :=
    .closure "::" [⟨"x", some pooled⟩] { Block.empty with localTable := some [⟨"x", true⟩] }
  { header := {
      magic := containerMagic, format := formatVersion, runtime := ⟨1, 0⟩, codeLength := 2,
      commands := 0, exceptions := 0, literals := 1, auxiliaries := 0, locals := 0, maxStack := 0 }
    top := { Block.empty with code := [1, 2], literals := [lambda] }
    procedures := [⟨"::f", "::", "x", { Block.empty with literals := [key] }⟩]
    classes := [⟨"::c"⟩]
    methods := [⟨"::c", .method, "m", "", Block.empty⟩] }

theorem decode_written_nestedContainer :
    ∃ bytes back, (container.encode {} nestedContainer).bytes? = .ok bytes ∧
      (∀ rest, container.decode {} none (bytes ++ rest) = .ok back rest) ∧
        container.equal nestedContainer back = true ∧
          container.equal back nestedContainer = true := by
  have well : container.WellFormed nestedContainer := by decide +kernel
  have accepted : container.Accepted none nestedContainer := ⟨rfl, rfl, by decide⟩
  obtain ⟨bytes, written⟩ :=
    (Container.succeeds_encode Limits.inWords_default nestedContainer).mpr (by decide +kernel)
  obtain ⟨back, read⟩ := decode_written well accepted written
  exact ⟨bytes, back, written, read⟩

end WireKind

end CompiledScript
