import CompiledScript.Proofs.Container.Canonical
import CompiledScript.Proofs.Container.Extent
import CompiledScript.Proofs.Container.Recovery
import CompiledScript.Proofs.Literal.Normalisation

/-!
# Normalising containers

Reading and writing again brings a run of bytes into a normal form: whatever is
read, in whichever of its forms, is written under the same bounds in at most as
many bytes, and what is written then is read back as an equal value and written as
the same bytes for good.  So one pass is enough.

What records add to literals and blocks is only dropped on the way: the
superclasses of a class and the text of a body are skipped when they are read and
written empty.
-/

set_option autoImplicit false

namespace CompiledScript

open Decoder Encoder

/-! ## Records -/

theorem ProcedureEntry.normalises_decode (limits : Limits) :
    (decode limits).Normalises (encode limits) fun entry => entry.body.Sound := by
  refine (yields_text limits _).bind fun name nameTaken nameFits => ?_
  refine (yields_text limits _).bind fun scope scopeTaken scopeFits => ?_
  refine (yields_text limits _).bind fun arguments argumentsTaken argumentsFit => ?_
  refine (Block.normalises_decode limits).last fun body bodyTaken read => ⟨read.1, ?_⟩
  simp only [encode, Encoder.append_assoc]
  exact nameFits.append (scopeFits.append (argumentsFit.append read.2))

/-- Superclasses are dropped. -/
theorem ClassEntry.normalises_decode (limits : Limits) :
    (decode limits).Normalises (encode limits) fun _ => True := by
  refine (yields_text limits _).bind fun name nameTaken nameFits => ?_
  refine (yields_table (yields_text limits _) _ _).last fun superclasses taken read => ?_
  obtain ⟨total, rfl, -⟩ := read
  exact ⟨trivial, nameFits.append ((within_word32 0).mono (Nat.le_add_right 4 total))⟩

/-- The text of the body is dropped. -/
theorem MethodEntry.normalises_decode (limits : Limits) :
    (decode limits).Normalises (encode limits) fun entry => entry.body.Sound := by
  refine (yields_text limits _).bind fun className classTaken classFits => ?_
  refine yields_byte.bind fun code codeTaken codeWidth => ?_
  subst codeWidth
  split
  · exact .throw
  refine (yields_text limits _).bind fun name nameTaken nameFits => ?_
  refine (yields_text limits _).bind fun arguments argumentsTaken argumentsFit => ?_
  refine (yields_count _ _).bind fun length lengthTaken counted => ?_
  refine (yields_run length).bind fun bodyText textTaken whole => ?_
  refine (Block.normalises_decode limits).last fun body bodyTaken read => ⟨read.1, ?_⟩
  obtain ⟨rfl, -⟩ := counted
  simp only [encode, Encoder.append_assoc]
  refine classFits.append ((within_byte _).append (nameFits.append (argumentsFit.append ?_)))
  exact (within_word32 0).append (read.2.mono (Nat.le_add_left bodyTaken textTaken))

/-! ## Headers and containers -/

namespace Header

/-- A header that was read names the format of the reader. -/
theorem normalises_decode :
    decode.Normalises encode fun header =>
      header.magic = containerMagic ∧ header.format = formatVersion := by
  refine yields_word32.bind fun magic taken magicWidth => ?_
  simp only
  split
  · exact .throw_bind
  rename_i knownMagic
  refine yields_word32.bind fun format taken formatWidth => ?_
  split
  · exact .throw_bind
  rename_i knownFormat
  refine yields_word32.bind fun runtime taken runtimeWidth => ?_
  refine yields_word64.bind fun codeLength taken codeWidth => ?_
  refine yields_word32.bind fun commands taken commandsWidth => ?_
  refine yields_word32.bind fun exceptions taken exceptionsWidth => ?_
  refine yields_word32.bind fun literals taken literalsWidth => ?_
  refine yields_word32.bind fun auxiliaries taken auxiliariesWidth => ?_
  refine yields_word32.bind fun locals taken localsWidth => ?_
  refine yields_word32.last fun maxStack taken stackWidth => ?_
  refine ⟨⟨not_not.mp knownMagic, not_not.mp knownFormat⟩, ?_⟩
  simp only [encode, Encoder.append_assoc, magicWidth, formatWidth, runtimeWidth, codeWidth,
    commandsWidth, exceptionsWidth, literalsWidth, auxiliariesWidth, localsWidth, stackWidth]
  refine (within_word32 _).append ((within_word32 _).append ((within_word32 _).append ?_))
  refine (within_word64 _).append ((within_word32 _).append ((within_word32 _).append ?_))
  refine (within_word32 _).append ((within_word32 _).append ((within_word32 _).append ?_))
  exact within_word32 _

/-- A header that a runtime goes on from is one of a producer it may load. -/
theorem normalises_decodeFor (running : RuntimeVersion) :
    (decodeFor running).Normalises encode fun header =>
      (header.magic = containerMagic ∧ header.format = formatVersion) ∧
        running.canLoad header.runtime = true := by
  refine normalises_decode.bind fun header taken read => ?_
  by_cases loads : running.canLoad header.runtime = true
  · simp only [checkRuntime, if_pos loads]
    exact .pure ⟨⟨read.1, loads⟩, read.2⟩
  · simp only [checkRuntime, if_neg loads]
    exact .throw

end Header

/-- What reading makes sure of in a container. -/
structure Container.Sound (running : RuntimeVersion) (container : Container) : Prop where
  accepted : container.Accepted running
  top : container.top.Sound
  procedures : ∀ entry ∈ container.procedures, entry.body.Sound
  methods : ∀ entry ∈ container.methods, entry.body.Sound

/-- **Every container that is read is sound, and is written again within the bytes that were
taken.** -/
theorem Container.normalises_decode (limits : Limits) (running : RuntimeVersion) :
    (decode limits running).Normalises (encode limits) (Sound running) := by
  refine (Header.normalises_decodeFor running).bind fun header headerTaken readHeader => ?_
  refine (Block.normalises_decode limits).bind fun top topTaken readTop => ?_
  refine ((ProcedureEntry.normalises_decode limits).table _ _).bind
    fun procedures proceduresTaken readProcedures => ?_
  refine ((ClassEntry.normalises_decode limits).table _ _).bind
    fun classes classesTaken readClasses => ?_
  refine ((MethodEntry.normalises_decode limits).table _ _).last
    fun methods methodsTaken readMethods => ?_
  constructor
  · obtain ⟨⟨magic, format⟩, loads⟩ := readHeader.1
    exact ⟨⟨magic, format, loads⟩, readTop.1, readProcedures.1, readMethods.1⟩
  · simp only [encode, Encoder.append_assoc]
    refine readHeader.2.append (readTop.2.append ?_)
    exact readProcedures.2.append (readClasses.2.append readMethods.2)

/-! ## Every kind -/

theorem Block.Sound.wellFormed {block : Block} (sound : block.Sound) : block.WellFormed :=
  fun literal found => (sound.below literal found).well

theorem Block.Sound.tablesFit {block : Block} (sound : block.Sound) : block.TablesFit :=
  ⟨sound.here, fun literal found => (sound.below literal found).fits⟩

namespace WireKind

/-- What reading makes sure of in a value. -/
structure Sound (running : Option RuntimeVersion) (kind : WireKind) (value : kind.Value) :
    Prop where
  well : kind.WellFormed value
  fits : kind.TablesFit value
  accepted : kind.Accepted running value

theorem normalises_decode (limits : Limits) (running : Option RuntimeVersion) (kind : WireKind) :
    (kind.decode limits running).Normalises (kind.encode limits) (Sound running kind) := by
  cases kind with
  | literal =>
    refine (Literal.normalises_decode limits).weaken fun literal taken read => ?_
    exact ⟨⟨read.1.well, read.1.fits, trivial⟩, read.2⟩
  | auxiliary =>
    refine (Auxiliary.normalises_decode limits).weaken fun record taken fits => ?_
    exact ⟨⟨trivial, trivial, trivial⟩, fits⟩
  | exceptionRange =>
    refine ExceptionRange.normalises_decode.weaken fun range taken fits => ?_
    exact ⟨⟨trivial, trivial, trivial⟩, fits⟩
  | block =>
    refine (Block.normalises_decode limits).weaken fun block taken read => ?_
    exact ⟨⟨read.1.wellFormed, read.1.tablesFit, trivial⟩, read.2⟩
  | header =>
    cases running with
    | none =>
      refine Header.normalises_decode.weaken fun header taken read => ?_
      refine ⟨⟨trivial, trivial, read.1.1, read.1.2, ?_⟩, read.2⟩
      exact fun version given => (Option.not_mem_none version given).elim
    | some version =>
      refine (Header.normalises_decodeFor version).weaken fun header taken read => ?_
      refine ⟨⟨trivial, trivial, read.1.1.1, read.1.1.2, ?_⟩, read.2⟩
      rintro _ ⟨⟩
      exact read.1.2
  | procedure =>
    refine (ProcedureEntry.normalises_decode limits).weaken fun entry taken read => ?_
    exact ⟨⟨read.1.wellFormed, read.1.tablesFit, trivial⟩, read.2⟩
  | className =>
    refine (ClassEntry.normalises_decode limits).weaken fun entry taken read => ?_
    exact ⟨⟨trivial, trivial, trivial⟩, read.2⟩
  | classNames =>
    refine ((ClassEntry.normalises_decode limits).table _ _).weaken fun entries taken read => ?_
    exact ⟨⟨trivial, trivial, trivial⟩, read.2⟩
  | method =>
    refine (MethodEntry.normalises_decode limits).weaken fun entry taken read => ?_
    exact ⟨⟨read.1.wellFormed, read.1.tablesFit, trivial⟩, read.2⟩
  | container =>
    refine (Container.normalises_decode limits _).weaken fun container taken read => ?_
    obtain ⟨⟨accepted, top, procedures, methods⟩, fits⟩ := read
    refine ⟨⟨⟨top.wellFormed, ?_, ?_⟩, ⟨top.tablesFit, ?_, ?_⟩, accepted⟩, fits⟩
    · exact fun entry found => (procedures entry found).wellFormed
    · exact fun entry found => (methods entry found).wellFormed
    · exact fun entry found => (procedures entry found).tablesFit
    · exact fun entry found => (methods entry found).tablesFit

/-- **Reading and writing again gives a normal form.**  Whatever was read is written under the same
bounds, in at most as many bytes as were taken for it.  What is written then is read, to its end,
as an equal value, and this value is written as the same bytes. -/
theorem decode_normalises {limits : Limits} {running : Option RuntimeVersion} {kind : WireKind}
    {input rest : Bytes} {value : kind.Value}
    (read : kind.decode limits running input = .ok value rest) :
    ∃ taken normal back, input = taken ++ rest ∧
      (kind.encode limits value).bytes? = .ok normal ∧ normal.length ≤ taken.length ∧
        kind.decode limits running normal = .ok back [] ∧
          kind.equal value back = true ∧ kind.equal back value = true ∧
            (kind.encode limits back).bytes? = .ok normal := by
  have normalises := kind.normalises_decode limits running
  have ended : kind.decode limits running input = ending (.ok value) rest := read
  obtain ⟨taken, whole, -⟩ := (kind.decided_decode limits running).of_ending ended
    fun error refused => by cases refused
  obtain ⟨count, length, sound, normal, written, most⟩ := normalises _ _ _ read
  obtain ⟨back, readBack, same⟩ :=
    kind.restores_encode limits running sound.well sound.accepted normal written
  have again := readBack []
  rw [List.append_nil] at again
  obtain ⟨-, -, soundBack, -⟩ := normalises _ _ _ again
  refine ⟨taken, normal, back, whole, written, ?_, again, ?_, ?_, ?_⟩
  · rw [whole, List.length_append] at length
    omega
  · exact (equal_iff_same sound.well soundBack.well).mpr same
  · exact (equal_iff_same soundBack.well sound.well).mpr same.symm
  · exact entails_encode same sound.fits soundBack.fits normal written

/-- A container in a form that is not written: a map out of order in which a padded magnitude and a
shorter one are the same key, a small integer behind the tag of unsigned words, a jump table out of
order, high bits in the kind of an exception range, a reserved word that is not zero, a superclass
and the text of a body. -/
def looseContainer : Bytes :=
  let header : Bytes :=
    [0x54, 0x43, 0x42, 0x58] ++ [1, 0, 0, 0] ++ [0, 0, 1, 0] ++ [0, 0, 0, 0, 0, 0, 0, 0] ++
      [7, 0, 0, 0] ++ [1, 0, 0, 0] ++ [1, 0, 0, 0] ++ [1, 0, 0, 0] ++ [2, 0, 0, 0] ++ [3, 0, 0, 0]
  let map : Bytes :=
    [4, 0, 0, 0] ++ [3, 0, 0, 0] ++ ([2, 0, 0, 0, 1] ++ [2, 0, 0, 0, 0]) ++
      ([1, 0, 0, 0, 1, 2, 0, 0, 0, 5, 0] ++ [9, 0, 0, 0, 7, 0, 0, 0, 0, 0, 0, 0]) ++
      ([1, 0, 0, 0, 1, 1, 0, 0, 0, 5] ++ [6, 0, 0, 0, 0, 0, 0, 0])
  let jumps : Bytes :=
    [2, 0, 0, 0] ++ [2, 0, 0, 0] ++ ([9, 0, 0, 0, 0, 0, 0, 0] ++ [1, 0, 0, 0]) ++
      ([3, 0, 0, 0, 0, 0, 0, 0] ++ [2, 0, 0, 0])
  let range : Bytes :=
    [1, 7, 0, 0] ++ [0, 0, 0, 0] ++ [0, 0, 0, 0] ++ [0, 0, 0, 0] ++ [0, 0, 0, 0] ++
      [0, 0, 0, 0] ++ [0, 0, 0, 0]
  let block : Bytes :=
    [0, 0, 0, 0] ++ ([1, 0, 0, 0] ++ map) ++ ([1, 0, 0, 0] ++ jumps) ++ ([1, 0, 0, 0] ++ range) ++
      [3, 0, 0, 0] ++ [5, 0, 0, 0] ++ [2, 0, 0, 0]
  let text (char : UInt8) : Bytes := [1, 0, 0, 0, char]
  header ++ block ++ [0, 0, 0, 0] ++ ([1, 0, 0, 0] ++ (text 97 ++ ([1, 0, 0, 0] ++ text 98))) ++
    ([1, 0, 0, 0] ++ (text 97 ++ [0] ++ text 109 ++ text 120 ++ text 59 ++ block))

theorem decode_normalises_loose :
    ∃ value rest, container.decode {} none looseContainer = .ok value rest ∧
      ∃ taken normal back, looseContainer = taken ++ rest ∧
        (container.encode {} value).bytes? = .ok normal ∧ normal.length ≤ taken.length ∧
          container.decode {} none normal = .ok back [] ∧
            container.equal value back = true ∧ container.equal back value = true ∧
              (container.encode {} back).bytes? = .ok normal := by
  have success : ((container.decode {} none).outcome looseContainer).isOk = true := by
    decide +kernel
  rw [outcome] at success
  cases read : container.decode {} none looseContainer with
  | error error rest =>
    rw [read] at success
    cases success
  | ok value rest => exact ⟨value, rest, rfl, decode_normalises read⟩

end WireKind

end CompiledScript
