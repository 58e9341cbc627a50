import CompiledScript.Interpreter.Host
import CompiledScript.Proofs.Container.Header
import CompiledScript.Proofs.Container.Loosening
import CompiledScript.Proofs.Container.Recovery
import CompiledScript.Proofs.Container.Room
import CompiledScript.Proofs.Save

/-!
# Containers that were saved

What a save has written is the encoding of the container of its script, down to
the last byte and whatever the room of the sink.  So it can be read back under the
bounds it was written with, by every runtime that may load what the host's version
has written, and what is read is equal to this container.  The header that is read
passes the check against the top block that is read.

The compilers of a host are only asked to give blocks that can be built, in which
no map has two equal keys.
-/

set_option autoImplicit false

namespace CompiledScript

variable {σ : Type} {host : Host σ}

/-- A host whose compilers make no map with two equal keys. -/
structure Host.CompilesWell (host : Host σ) : Prop where
  script : ∀ source before block after,
    host.compileScript source before = .ok block after → block.WellFormed
  body : ∀ source before block after,
    host.compileBody source before = .ok block after → block.WellFormed

namespace Container

theorem SavedFrom.wellFormed (compiles : host.CompilesWell) {dialect : Dialect} {source : String}
    {world : World σ} {container : Container}
    (saved : container.SavedFrom host dialect source world) : container.WellFormed where
  top := by
    obtain ⟨_, compiled, -⟩ := saved.top
    exact compiles.script _ _ _ _ compiled
  procedures entry listed := by
    obtain ⟨_, _, belongs⟩ := Pairing.origin saved.procedures listed
    obtain ⟨_, _, compiled⟩ := belongs.body
    exact compiles.body _ _ _ _ compiled
  methods entry listed := by
    obtain ⟨_, _, belongs⟩ := Pairing.origin saved.methods listed
    obtain ⟨_, _, compiled⟩ := belongs.body
    exact compiles.body _ _ _ _ compiled

theorem SavedFrom.accepted {dialect : Dialect} {source : String} {world : World σ}
    {container : Container} (saved : container.SavedFrom host dialect source world)
    {running : RuntimeVersion} (loads : running.canLoad container.header.runtime = true) :
    container.Accepted running := by
  obtain ⟨_, -, made⟩ := saved.top
  obtain ⟨magic, format, -⟩ := Header.forBlock_ok made
  exact ⟨magic, format, loads⟩

/-- A container is only written if the code of its top block is short enough for a word. -/
theorem code_lt_of_writes {limits : Limits} {container : Container} {bytes : Bytes}
    (written : (container.encode limits).Writes bytes) :
    container.top.code.length < 4294967296 := by
  simp only [encode, Block.encode, Block.encodeWith, Encoder.append_assoc] at written
  obtain ⟨_, _, -, written, -⟩ := Encoder.writes_append.mp written
  obtain ⟨_, _, counted, -⟩ := Encoder.writes_append.mp written
  obtain ⟨-, word, -⟩ := Encoder.writes_count.mp counted
  exact word

/-- The header of a saved container passes the check against every block that its top block is
read back as. -/
theorem SavedFrom.crossCheck {dialect : Dialect} {source : String} {world : World σ}
    {limits : Limits} {container back : Container} {bytes : Bytes}
    (saved : container.SavedFrom host dialect source world)
    (written : (container.encode limits).Writes bytes) (same : container.Same back) :
    back.header.crossCheck back.top = [] := by
  rw [Header.crossCheck_eq_nil_iff]
  intro counter
  obtain ⟨_, -, made⟩ := saved.top
  rw [← same.header, ← Counter.ofBlock_alike same.top]
  exact Header.counter_forBlock made (code_lt_of_writes written) counter

end Container

/-- **A save writes exactly the container of its script.**  Its bytes are the encoding of the header
for the compiled script, the compiled script, and one entry for each definition and class of the
scan in the order of the scan.  Every runtime that may load what the host's version has written
reads it back, from any input that starts with it, as an equal container whose header passes the
check against its top block. -/
theorem save_described {options : Options} {room : Room} {source : String}
    {world after : World σ} {bytes : Bytes}
    (done : save host options room source world = ⟨after, bytes, none⟩) :
    ∃ container, Container.ofScript host options.dialect source world = .ok container after ∧
      (container.encode options.limits).bytes? = .ok bytes ∧
        (host.CompilesWell → ∀ running : RuntimeVersion,
          running.canLoad container.header.runtime = true →
            ∃ back, (∀ rest, Container.decode options.limits running (bytes ++ rest) =
                .ok back rest) ∧
              (container == back) = true ∧ (back == container) = true ∧
                back.header.crossCheck back.top = []) := by
  obtain ⟨container, made, taken⟩ := save_iff.mp done
  have written := (Container.steady_encode options.limits container).writes taken
  have saved := Container.savedFrom_ofScript made
  refine ⟨container, made, written, fun compiles running loads => ?_⟩
  have well := saved.wellFormed compiles
  obtain ⟨back, read, same⟩ := Container.restores_encode well (saved.accepted loads) _ written
  refine ⟨back, read, ?_, ?_, saved.crossCheck written same⟩
  · exact (Container.equal_iff_same well same.wellFormed).mpr same
  · exact (Container.equal_iff_same same.wellFormed well).mpr same.symm

namespace Interpreter

/-- The interpreter compiles scripts and bodies to blocks that hold no maps. -/
theorem compilesWell : Interpreter.host.CompilesWell where
  script source before block after compiled := by
    change compileScript source before = _ at compiled
    obtain ⟨_, _, -, compiled⟩ := Steps.of_bind compiled
    cases fault : syntaxError? (parseScript source) with
    | some error =>
      simp only [fault] at compiled
      cases compiled
    | none =>
      simp only [fault] at compiled
      cases compiled
      intro literal listed
      obtain ⟨word, -, rfl⟩ := List.mem_map.mp listed
      simp [Literal.WellFormed, Literal.DistinctKeys]
  body source before block after compiled := by
    change compileBody source before = _ at compiled
    rw [compileBody] at compiled
    cases fault : syntaxError? (parseScript source.body) with
    | some error =>
      rw [fault] at compiled
      cases compiled
    | none =>
      rw [fault] at compiled
      obtain ⟨_, _, -, done⟩ := Steps.of_bind compiled
      cases done
      simp [Block.WellFormed, Literal.WellFormed, Literal.DistinctKeys]

/-- A script with a procedure, a class and a class member. -/
def memberScript : String :=
  "proc greet {name} {emit $name}\noo::class create c\noo::define c method m {} {greet c}\ngreet a"

end Interpreter

open Interpreter in
theorem save_described_memberScript :
    ∃ after bytes container,
      save Interpreter.host {} none memberScript ⟨.ofVersion ⟨1, 0⟩, []⟩ = ⟨after, bytes, none⟩ ∧
        Container.ofScript Interpreter.host {} memberScript ⟨.ofVersion ⟨1, 0⟩, []⟩ =
            .ok container after ∧
          (container.encode {}).bytes? = .ok bytes ∧
            ∃ back, (∀ rest, Container.decode {} container.header.runtime (bytes ++ rest) =
                .ok back rest) ∧
              (container == back) = true ∧ (back == container) = true ∧
                back.header.crossCheck back.top = [] := by
  have success : (save Interpreter.host {} none memberScript
      ⟨.ofVersion ⟨1, 0⟩, []⟩).failure.isNone = true := by
    decide +kernel
  cases done : save Interpreter.host {} none memberScript ⟨.ofVersion ⟨1, 0⟩, []⟩ with
  | mk after bytes failure =>
    rw [done] at success
    cases Option.isNone_iff_eq_none.mp success
    obtain ⟨container, made, written, reads⟩ := save_described done
    exact ⟨after, bytes, container, rfl, made, written,
      reads compilesWell _ container.header.runtime.canLoad_self⟩

/-- What is decoded of a save corresponds to the container that was saved, whatever the bounds and
the version it is decoded with. -/
theorem save_decoded (compiles : host.CompilesWell) {options : Options} {room : Room}
    {source : String} {world after : World σ} {bytes : Bytes}
    (done : save host options room source world = ⟨after, bytes, none⟩) {limits : Limits}
    {running : RuntimeVersion} {container : Container}
    (decoded : (Container.decode limits running).outcome bytes = .ok container) :
    ∃ saved, Container.ofScript host options.dialect source world = .ok saved after ∧
      saved.Same container := by
  obtain ⟨saved, made, taken⟩ := save_iff.mp done
  have written := (Container.steady_encode options.limits saved).writes taken
  have savedFrom := Container.savedFrom_ofScript made
  obtain ⟨back, read, same⟩ := Container.restores_encode (savedFrom.wellFormed compiles)
    (savedFrom.accepted saved.header.runtime.canLoad_self) _ written
  simp only [Decoder.outcome] at decoded
  split at decoded
  · rename_i found rest reading
    cases decoded
    obtain ⟨rfl, -⟩ := Container.decode_unique reading (List.append_nil bytes ▸ read [])
    exact ⟨saved, made, same⟩
  · cases decoded

end CompiledScript
