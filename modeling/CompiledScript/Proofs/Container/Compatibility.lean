import CompiledScript.CommandLine.Program
import CompiledScript.Proofs.Container.Composition
import CompiledScript.Proofs.Container.Loosening

/-!
# The running version is a gate

A container is read for a running version, or for none, and then it is read for the
version that its own header announces.  Both ways the whole file is decoded, so in the
second the header is decoded twice.

The version is asked for right behind the header and nowhere else: what follows the
header is refused for reasons of its own only.  A container is therefore read for a
version exactly if it is read for none and the version may load what the header
announces, and it is the same container in both cases.  Read for none, it is never
refused because of its version, as every version may load what it has written itself.
-/

set_option autoImplicit false

namespace CompiledScript

open Decoder

/-! ## Refusals because of a version -/

/-- The decoder never refuses an input because of the runtime that wrote it. -/
def Decoder.Indifferent {α : Type} (decoder : Decoder α) : Prop :=
  ∀ input error rest, decoder input = .error error rest → error.classOf ≠ .compatibility

theorem Decoder.compositional_indifferent : Compositional @Indifferent where
  pure value := by
    intro input error rest failed
    cases failed
  refuse malformed := by
    intro input error rest failed
    cases failed
    rw [malformed]
    decide
  digits width := by
    intro input error rest failed
    simp only [digits] at failed
    split at failed
    · cases failed
    · cases failed
      decide
  run length := by
    intro input error rest failed
    simp only [Decoder.run] at failed
    split at failed
    · cases failed
    · cases failed
      decide
  bind start finish := by
    intro input error rest failed
    rcases Steps.of_bind_error failed with failed | ⟨value, between, -, failed⟩
    · exact start _ _ _ failed
    · exact finish value _ _ _ failed

namespace Container

variable {limits : Limits} {running : RuntimeVersion} {container : Container} {content : Bytes}

/-! ## Decoding for a version -/

/-- The sections are put behind the header that they follow. -/
theorem header_of_sections {header : Header} {input rest : Bytes}
    (read : decodeSections limits header input = .ok container rest) :
    container.header = header := by
  obtain ⟨top, afterTop, -, read⟩ := Steps.of_bind read
  obtain ⟨procedures, afterProcedures, -, read⟩ := Steps.of_bind read
  obtain ⟨classes, afterClasses, -, read⟩ := Steps.of_bind read
  obtain ⟨methods, afterMethods, -, read⟩ := Steps.of_bind read
  cases read
  rfl

/-- A version that reads a container may load it, and any other that may load it reads it too. -/
theorem decode_ok_iff {rest : Bytes} :
    decode limits running content = .ok container rest ↔
      decode limits container.header.runtime content = .ok container rest ∧
        running.canLoad container.header.runtime = true := by
  rw [decode_eq, decode_eq]
  constructor
  · intro accepted
    obtain ⟨header, behind, read, sections⟩ := Steps.of_bind accepted
    obtain ⟨found, loads⟩ := Header.decodeFor_ok.mp read
    have own := Header.decodeFor_ok.mpr ⟨found, header.runtime.canLoad_self⟩
    rw [header_of_sections sections]
    exact ⟨(Steps.bind_ok own).trans sections, loads⟩
  · rintro ⟨accepted, loads⟩
    obtain ⟨header, behind, read, sections⟩ := Steps.of_bind accepted
    obtain ⟨found, -⟩ := Header.decodeFor_ok.mp read
    rw [header_of_sections sections] at loads
    exact (Steps.bind_ok (Header.decodeFor_ok.mpr ⟨found, loads⟩)).trans sections

/-- A container that is read for the version of its own header is not refused because of it. -/
theorem class_of_refused {header : Header} {behind rest : Bytes} {error : FormatError}
    (found : Header.decode content = .ok header behind)
    (refused : decode limits header.runtime content = .error error rest) :
    error.classOf ≠ .compatibility := by
  have own := Header.decodeFor_ok.mpr ⟨found, header.runtime.canLoad_self⟩
  rw [decode_eq, Steps.bind_ok own] at refused
  exact compositional_indifferent.sections limits header _ _ _ refused

theorem outcome_ok_iff {α : Type} {decoder : Decoder α} {value : α} :
    decoder.outcome content = .ok value ↔ ∃ rest, decoder content = .ok value rest := by
  rw [outcome]
  cases decoder content with
  | ok found rest => simp
  | error error rest => simp

/-! ## Decoding for no version -/

/-- For no version a file is decoded for that of its header, if it has one. -/
theorem ofFile_none {header : Header} {behind : Bytes}
    (found : Header.decode content = .ok header behind) :
    ofFile limits none content = (decode limits header.runtime).outcome content := by
  simp only [ofFile, outcome, found]
  rfl

theorem ofFile_none_error {error : FormatError} {behind : Bytes}
    (refused : Header.decode content = .error error behind) :
    ofFile limits none content = .error error := by
  simp only [ofFile, outcome, refused]
  rfl

/-- What is read for no version is read for the version of its own header. -/
theorem ofFile_none_ok_iff :
    ofFile limits none content = .ok container ↔
      (decode limits container.header.runtime).outcome content = .ok container := by
  cases found : Header.decode content with
  | ok header behind =>
    rw [ofFile_none found, outcome_ok_iff, outcome_ok_iff]
    constructor
    · rintro ⟨rest, accepted⟩
      exact ⟨rest, (decode_ok_iff.mp accepted).1⟩
    · rintro ⟨rest, accepted⟩
      obtain ⟨header', behind', read, sections⟩ := Steps.of_bind accepted
      have same := (Header.decodeFor_ok.mp read).1
      rw [found] at same
      cases same
      rw [header_of_sections sections] at accepted
      exact ⟨rest, accepted⟩
  | error error behind =>
    rw [ofFile_none_error found, outcome_ok_iff]
    constructor
    · intro accepted
      cases accepted
    · rintro ⟨rest, accepted⟩
      obtain ⟨header, behind', read, -⟩ := Steps.of_bind accepted
      have same := (Header.decodeFor_ok.mp read).1
      rw [found] at same
      cases same

/-- Read for no version, a file is not refused because of its version. -/
theorem class_of_ofFile_none {error : FormatError}
    (refused : ofFile limits none content = .error error) : error.classOf ≠ .compatibility := by
  cases found : Header.decode content with
  | ok header behind =>
    rw [ofFile_none found, outcome] at refused
    split at refused
    · cases refused
    · rename_i rest failed
      cases refused
      exact class_of_refused found failed
  | error cause behind =>
    rw [ofFile_none_error found] at refused
    cases refused
    exact compositional_indifferent.header _ _ _ found

/-- **A version reads what is read for no version, if it may load it.** -/
theorem outcome_ok_iff_ofFile :
    (decode limits running).outcome content = .ok container ↔
      ofFile limits none content = .ok container ∧
        running.canLoad container.header.runtime = true := by
  rw [ofFile_none_ok_iff, outcome_ok_iff, outcome_ok_iff, ← exists_and_right]
  exact exists_congr fun _ => decode_ok_iff

end Container

namespace CommandLine

/-- Reading a file that is there is decoding what it holds. -/
theorem readContainer_of_readable {surroundings : Surroundings Id} {path : String}
    {content : Bytes} (readable : surroundings.read path = .ok content) (settings : Settings)
    (running : Option RuntimeVersion) :
    (readContainer surroundings settings running path).run =
      (Container.ofFile settings.limits running content).mapError (Failure.containerRefused path) := by
  have found : surroundings.read path = (pure (.ok content) : Id _) := readable
  cases answer : Container.ofFile settings.limits running content with
  | error error =>
    simp only [readContainer, found, liftM_pure, pure_bind, answer]
    rfl
  | ok container =>
    simp only [readContainer, found, liftM_pure, pure_bind, answer]
    rfl

/-- **The running version is a pure gate.**  A file that is there is read for no version exactly if
it is read for some, and never refused because of its version.  A version reads what is read for no
version if it may load it, and nothing else; so whatever a version reads is read alike by every
version with the same major and no smaller minor number, and by none with another major number. -/
theorem running_only_gates {surroundings : Surroundings Id} {settings : Settings} {path : String}
    {content : Bytes} (readable : surroundings.read path = .ok content) :
    let reading : Except Failure Container := (readContainer surroundings settings none path).run
    let decoding (running : RuntimeVersion) : Except FormatError Container :=
      (Container.decode settings.limits running).outcome content
    ((∃ container, reading = .ok container) ↔
        ∃ running container, decoding running = .ok container) ∧
      (∀ found running,
        reading ≠ .error (.containerRefused path (.incompatibleRuntime found running))) ∧
      (∀ running container, decoding running = .ok container ↔
        reading = .ok container ∧ running.canLoad container.header.runtime = true) ∧
      ∀ major minor container, decoding ⟨major, minor⟩ = .ok container →
        (∀ newer, minor ≤ newer → decoding ⟨major, newer⟩ = .ok container) ∧
          ∀ other, other ≠ major → ∀ minor found, decoding ⟨other, minor⟩ ≠ .ok found := by
  intro reading decoding
  have reads : reading = (Container.ofFile settings.limits none content).mapError
      (Failure.containerRefused path) := readContainer_of_readable readable settings none
  have reads_iff (container : Container) : reading = .ok container ↔
      Container.ofFile settings.limits none content = .ok container := by
    rw [reads]
    cases Container.ofFile settings.limits none content with
    | error error => simp [Except.mapError]
    | ok found => simp [Except.mapError]
  have gate (running : RuntimeVersion) (container : Container) :
      decoding running = .ok container ↔
        reading = .ok container ∧ running.canLoad container.header.runtime = true := by
    rw [reads_iff]
    exact Container.outcome_ok_iff_ofFile
  refine ⟨?_, ?_, gate, ?_⟩
  · constructor
    · rintro ⟨container, accepted⟩
      have own := Container.ofFile_none_ok_iff.mp ((reads_iff container).mp accepted)
      exact ⟨container.header.runtime, container, own⟩
    · rintro ⟨running, container, accepted⟩
      exact ⟨container, ((gate running container).mp accepted).1⟩
  · intro found running refused
    rw [reads] at refused
    cases answer : Container.ofFile settings.limits none content with
    | error error =>
      rw [answer] at refused
      cases refused
      exact Container.class_of_ofFile_none answer rfl
    | ok container =>
      rw [answer] at refused
      cases refused
  · intro major minor container accepted
    obtain ⟨read, loads⟩ := (gate _ _).mp accepted
    obtain ⟨sameMajor, older⟩ := (RuntimeVersion.canLoad_iff _ _).mp loads
    constructor
    · intro newer later
      apply (gate _ _).mpr
      refine ⟨read, (RuntimeVersion.canLoad_iff _ _).mpr ⟨sameMajor, ?_⟩⟩
      exact UInt16.le_trans older later
    · intro other differs minor found accepted
      obtain ⟨readToo, loadsToo⟩ := (gate _ _).mp accepted
      rw [read] at readToo
      cases readToo
      obtain ⟨otherMajor, -⟩ := (RuntimeVersion.canLoad_iff _ _).mp loadsToo
      exact differs (otherMajor.symm.trans sameMajor)

/-- A container of version 9.4 whose top block has two bytes of code. -/
def versionedContainer : Container where
  header := {
    magic := containerMagic, format := formatVersion, runtime := ⟨9, 4⟩, codeLength := 2,
    commands := 0, exceptions := 0, literals := 0, auxiliaries := 0, locals := 0, maxStack := 0 }
  top := { Block.empty with code := [1, 2], compiledLocals := some 0 }
  procedures := []
  classes := []
  methods := []

/-- A file with a container of version 9.4 and three bytes behind it. -/
def versionedFile : Surroundings Id where
  contains _ := true
  read _ := .ok ((versionedContainer.encode {}).unbounded.bytes ++ [7, 7, 7])
  directory := none
  userSettings := none

/-- A container of version 9.4 is read for no version, for 9.4 and 9.5, and not for 10.4. -/
theorem running_only_gates_versioned :
    (readContainer versionedFile {} none "a").run = .ok versionedContainer ∧
      ∃ content, versionedFile.read "a" = .ok content ∧
        (Container.decode {} ⟨9, 5⟩).outcome content = .ok versionedContainer ∧
          ∀ found, (Container.decode {} ⟨10, 4⟩).outcome content ≠ .ok found := by
  have readable : versionedFile.read "a" =
      .ok ((versionedContainer.encode {}).unbounded.bytes ++ [7, 7, 7]) := rfl
  have accepted : (Container.decode {} ⟨9, 4⟩).outcome
      ((versionedContainer.encode {}).unbounded.bytes ++ [7, 7, 7]) = .ok versionedContainer := rfl
  obtain ⟨-, -, gate, upward⟩ := @running_only_gates versionedFile {} "a" _ readable
  obtain ⟨newer, others⟩ := upward 9 4 versionedContainer accepted
  refine ⟨((gate _ _).mp accepted).1, _, readable, newer 5 (by decide), ?_⟩
  exact others 10 (by decide) 4

end CommandLine

end CompiledScript
