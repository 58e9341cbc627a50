import CompiledScript.Proofs.Container.Demand
import CompiledScript.Proofs.Saved

/-!
# Saves that failed

A save puts every piece into the sink as soon as it has it.  When the host cannot
compile a body, when a bound is exceeded or when the sink is full, the sink keeps what
was written before, and nobody takes it back.  What it keeps is never a container.

However a save ends, what has reached the sink is what some encoder writes there, and
this encoder fails if the save does: a failure of the host is the failure of an encoder
that writes nothing.  The encoder is put together along the save, and at each step the
decoder of what is being written demands it.  The host is asked in front of an entry,
where the decoder still needs the first field of the entry, so breaking off there is no
different from breaking off in the middle of a field.

Neither the bounds nor the version that the bytes are read with play any part in this.
-/

set_option autoImplicit false

namespace CompiledScript

variable {σ α β : Type}

open Decoder

/-! ## What has reached the sink -/

/-- What has reached the sink when an action ends is what the encoder writes into it, and the action
has failed exactly if the encoder does. -/
def Encoder.Accounts (encoder : Encoder) (start : Saving σ) :
    EStateM.Result RuntimeError (Saving σ) Unit → Prop
  | .ok () finish => ∃ bytes, encoder.into start.sink.room = ⟨bytes, none⟩ ∧
      finish.sink = start.sink.after bytes
  | .error _ finish => ∃ bytes error, encoder.into start.sink.room = ⟨bytes, some error⟩ ∧
      finish.sink.bytes = start.sink.bytes ++ bytes

namespace SaveM

/-- However the action ends, an encoder with the property accounts for what has reached the sink. -/
def Leaves (saving : SaveM σ Unit) (property : Encoder → Prop) : Prop :=
  ∀ start, ∃ encoder, property encoder ∧ encoder.Accounts start (saving start)

namespace Leaves

variable {saving : SaveM σ Unit} {property : Encoder → Prop}

theorem write {encoder : Encoder} (holds : property encoder) :
    Leaves (σ := σ) (SaveM.write encoder) property := by
  intro start
  refine ⟨encoder, holds, ?_⟩
  rw [SaveM.write]
  rcases output : encoder.into start.sink.room with ⟨bytes, _ | error⟩
  · exact ⟨bytes, output, rfl⟩
  · exact ⟨bytes, error, output, rfl⟩

theorem nothing (holds : property Encoder.nothing) : Leaves (σ := σ) (pure ()) property := by
  intro start
  exact ⟨Encoder.nothing, holds, [], rfl, (Sink.after_nil _).symm⟩

/-- What two actions leave one after the other is what two encoders write one after the other. -/
theorem append {second : SaveM σ Unit} {further : Encoder → Prop} (joined : Encoder → Prop)
    (front : saving.Leaves property) (back : second.Leaves further)
    (join : ∀ one other, property one → further other → joined (one ++ other)) :
    (saving >>= fun _ => second).Leaves joined := by
  intro start
  obtain ⟨one, holds, accounts⟩ := front start
  cases first : saving start with
  | error error finish =>
    rw [first] at accounts
    rw [Steps.bind_error first]
    obtain ⟨bytes, cause, broken, sink⟩ := accounts
    -- Nothing of the second action is written, so any encoder that it may leave will do.
    obtain ⟨other, holdsToo, -⟩ := back start
    refine ⟨one ++ other, join one other holds holdsToo, bytes, cause, ?_, sink⟩
    exact Encoder.append_into_of_failed broken other
  | ok value middle =>
    rw [first] at accounts
    rw [Steps.bind_ok first]
    obtain ⟨head, written, sink⟩ := accounts
    obtain ⟨other, holdsToo, accountsToo⟩ := back middle
    refine ⟨one ++ other, join one other holds holdsToo, ?_⟩
    cases rest : second middle with
    | ok value finish =>
      rw [rest] at accountsToo
      obtain ⟨tail, writtenToo, sinkToo⟩ := accountsToo
      rw [sink] at writtenToo sinkToo
      refine ⟨head ++ tail, ?_, by rw [sinkToo, Sink.after_after]⟩
      exact Encoder.append_into_ok.mpr ⟨head, tail, written, writtenToo, rfl⟩
    | error error finish =>
      rw [rest] at accountsToo
      obtain ⟨tail, cause, broken, sinkToo⟩ := accountsToo
      rw [sink] at broken sinkToo
      refine ⟨head ++ tail, cause, ?_, ?_⟩
      · rw [Encoder.append_into_of_written written]
        exact congrArg₂ Written.mk (congrArg (head ++ ·) (congrArg Written.bytes broken))
          (congrArg Written.failure broken)
      · rw [sinkToo, ← List.append_assoc]
        rfl

/-- The host may be asked first; if it fails, nothing is written. -/
theorem ask {action : HostM σ α} {next : α → SaveM σ Unit}
    (failing : property (.fail .sinkFull)) (leaves : ∀ value, (next value).Leaves property) :
    (SaveM.ask action >>= next).Leaves property := by
  intro start
  cases answer : action start.world with
  | ok value world =>
    have asked : SaveM.ask action start = .ok value { start with world } := by
      rw [SaveM.ask, answer]
    rw [Steps.bind_ok asked]
    exact leaves value { start with world }
  | error error world =>
    have asked : SaveM.ask action start = .error (.host error) { start with world } := by
      rw [SaveM.ask, answer]
    rw [Steps.bind_error asked]
    exact ⟨.fail .sinkFull, failing, [], .sinkFull, rfl, (List.append_nil _).symm⟩

/-- The world may be looked at first. -/
theorem look {next : Saving σ → SaveM σ Unit} (leaves : ∀ saving, (next saving).Leaves property) :
    (get >>= next).Leaves property :=
  fun start => leaves start start

/-! ### Tables -/

/-- Entries that are asked for one by one and written, each demanded by the decoder of an item. -/
theorem each {make : α → HostM σ β} {encode : β → Encoder} {γ : Type} {item : Decoder γ}
    (hungry : item.Refuses []) (demands : ∀ entry, item.Demands (encode entry) fun _ => True)
    (items : List α) :
    Leaves (items.forM fun entry => do SaveM.write (encode (← SaveM.ask (make entry))))
      fun encoder => (times items.length item).Demands encoder fun _ => True := by
  induction items with
  | nil => exact nothing (.pure trivial)
  | cons entry items ih =>
    simp only [List.forM, List.length_cons, times_succ, bind_assoc]
    refine ask (.fail (hungry.bind _)) fun value => ?_
    have first : Leaves (σ := σ) (SaveM.write (encode value))
        fun encoder => item.Demands encoder fun _ => True := write (demands value)
    refine first.append _ ih fun one other first others => ?_
    exact first.bind fun _ _ => others.last fun _ _ => trivial

/-- A table whose entries are asked for one by one. -/
theorem table {make : α → HostM σ β} {encode : β → Encoder} {entry : α → SaveM σ Encoder}
    (makes : ∀ item, entry item = do return encode (← SaveM.ask (make item)))
    {γ : Type} {item : Decoder γ} (hungry : item.Refuses [])
    (demands : ∀ entry, item.Demands (encode entry) fun _ => True) (what : String)
    (max bound : Nat) (items : List α) :
    (Save.table what max items entry).Leaves
      fun encoder => (Decoder.table what bound item).Demands encoder fun _ => True := by
  simp only [Save.table, makes, bind_assoc, pure_bind]
  have length : Leaves (σ := σ) (SaveM.write (Encoder.count what items.length max))
      fun encoder => (count what bound).Demands encoder (· = items.length) :=
    write (demands_count what what items.length max bound)
  refine length.append _ (each hungry demands items) fun one other counted others => ?_
  refine counted.bind ?_
  rintro _ rfl
  exact others

end Leaves

end SaveM

/-! ## What a save leaves behind -/

/-- What is read of a container behind its procedures. -/
def Container.decodeClasses (limits : Limits) (header : Header) (top : Block)
    (procedures : List ProcedureEntry) : Decoder Container := do
  let classes ← Decoder.table "classes" limits.maxElements (ClassEntry.decode limits)
  let methods ← Decoder.table "methods" limits.maxElements (MethodEntry.decode limits)
  return { header, top, procedures, classes, methods }

/-- What is read of a container behind its top block. -/
def Container.decodeTables (limits : Limits) (header : Header) (top : Block) :
    Decoder Container := do
  let procedures ← Decoder.table "procedures" limits.maxElements (ProcedureEntry.decode limits)
  decodeClasses limits header top procedures

/-- However a save ends, what it leaves in the sink is demanded by the decoder of containers. -/
theorem saveInto_leaves (host : Host σ) (options : Options) (source : String) (limits : Limits)
    (running : RuntimeVersion) :
    (saveInto host options source).Leaves
      fun encoder => (Container.decode limits running).Demands encoder fun _ => True := by
  have hungry : (Container.decode limits running).Refuses [] :=
    ((refuses_word32.bind _).bind _).bind _
  have classEntry : ∀ name, (return ClassEntry.encode options.limits ⟨name⟩ : SaveM σ Encoder) =
      do return ClassEntry.encode options.limits (← SaveM.ask (pure ⟨name⟩)) := fun _ => rfl
  have procedures := SaveM.Leaves.table (Save.procedureEntry_eq host options.limits)
    ((refuses_text limits _).bind _) (fun entry => ProcedureEntry.demands_decode entry)
    "procedures" options.limits.maxElements limits.maxElements
    (scan source options.dialect).procedures
  have classes := SaveM.Leaves.table classEntry ((refuses_text limits _).bind _)
    (fun entry => ClassEntry.demands_decode entry) "classes" options.limits.maxElements
    limits.maxElements (scan source options.dialect).classes
  have methods := SaveM.Leaves.table (Save.methodEntry_eq host options.limits)
    ((refuses_text limits _).bind _) (fun entry => MethodEntry.demands_decode entry) "methods"
    options.limits.maxElements limits.maxElements (scan source options.dialect).membersWithClass
  have behindProcedures := classes.append
    (fun encoder => ∀ header top procedures,
      (Container.decodeClasses limits header top procedures).Demands encoder fun _ => True)
    methods fun one other classes methods header top procedures =>
      classes.bind fun _ _ => methods.last fun _ _ => trivial
  have tables := procedures.append
    (fun encoder => ∀ header top,
      (Container.decodeTables limits header top).Demands encoder fun _ => True)
    behindProcedures fun one other procedures others header top =>
      procedures.bind fun procedures _ => others header top procedures
  simp only [saveInto]
  refine .ask (.fail hungry) fun top => .look fun saving => ?_
  cases made : Header.forBlock top (host.runtimeVersion saving.world.host) with
  | error error =>
    simp only [Save.opening, made]
    have opening : SaveM.Leaves (σ := σ) (SaveM.write (.fail error)) (· = .fail error) := .write rfl
    refine opening.append _ tables ?_
    rintro _ others rfl -
    exact .fail hungry
  | ok header =>
    simp only [Save.opening, made]
    have opening : SaveM.Leaves (σ := σ) (SaveM.write (header.encode ++ top.encode options.limits))
      (· = header.encode ++ top.encode options.limits) := .write rfl
    refine opening.append _ tables ?_
    rintro _ others rfl demanded
    rw [Encoder.append_assoc]
    refine (Header.demands_decodeFor running header).bind fun header _ => ?_
    exact (Block.demands_decode top).bind fun top _ => demanded header top

/-- **A failed save leaves nothing that can be loaded.**  Whatever the host is, wherever the save
broke off and for whatever reason, reading what has reached the sink ends in an error, under all
bounds and for every running version. -/
theorem failed_save_unreadable {host : Host σ} {options : Options} {room : Room} {source : String}
    {world : World σ} {error : RuntimeError}
    (failed : (save host options room source world).failure = some error)
    (limits : Limits) (running : RuntimeVersion) :
    ∃ cause, (Container.decode limits running).outcome
      (save host options room source world).bytes = .error cause := by
  obtain ⟨encoder, demanded, accounts⟩ :=
    saveInto_leaves host options source limits running ⟨world, .ofRoom room⟩
  cases ran : saveInto host options source ⟨world, .ofRoom room⟩ with
  | ok _ finish =>
    rw [save, ran] at failed
    cases failed
  | error cause finish =>
    rw [ran] at accounts
    obtain ⟨bytes, broken, output, left⟩ := accounts
    have kept : (save host options room source world).bytes = bytes := by
      rw [save, ran]
      exact left
    have refuses := demanded.broken output
    rw [kept, Decoder.outcome]
    cases read : Container.decode limits running bytes with
    | ok value rest => exact absurd read (refuses value rest)
    | error cause _ => exact ⟨cause, rfl⟩

open Interpreter in
theorem failed_save_unreadable_in_small_room :
    (save Interpreter.host {} (some 40) memberScript ⟨.ofVersion ⟨1, 0⟩, []⟩).failure =
        some (.format .sinkFull) ∧
      ∃ cause, (Container.decode {} ⟨1, 0⟩).outcome
        (save Interpreter.host {} (some 40) memberScript ⟨.ofVersion ⟨1, 0⟩, []⟩).bytes =
          .error cause := by
  have failed : (save Interpreter.host {} (some 40) memberScript
      ⟨.ofVersion ⟨1, 0⟩, []⟩).failure = some (.format .sinkFull) := by
    decide +kernel
  exact ⟨failed, failed_save_unreadable failed {} ⟨1, 0⟩⟩

end CompiledScript
