import CompiledScript.Proofs.HostSteps
import CompiledScript.Proofs.Wire.Output
import CompiledScript.Save

/-!
# What a save writes

A save never holds the container it writes: it compiles one body after the other,
and each entry reaches the sink before the next body is compiled.  What it amounts
to can be said without a sink.  A container is made of the script first, with the
same questions to the host in the same order, and is written afterwards.

The two agree on every run that succeeds, for a sink of any room: the save succeeds
exactly if the container can be made and the sink takes all of its encoding, and
then the sink holds this encoding and the host is in the state in which making the
container has left it.  The argument goes along the save.  An action that writes
streams an action that makes encoders if they are related in this way, and streaming
is kept when actions follow one another, when the host is asked first, and when
the entries of a table are written one by one.
-/

set_option autoImplicit false

namespace CompiledScript

variable {σ : Type}

/-! ## Single steps -/

namespace Sink

/-- A sink that has taken a run of bytes. -/
def after (sink : Sink) (bytes : Bytes) : Sink :=
  ⟨sink.room.after bytes.length, sink.bytes ++ bytes⟩

theorem after_nil (sink : Sink) : sink.after [] = sink := by
  obtain ⟨room, bytes⟩ := sink
  cases room with
  | none => simp [after, Room.after]
  | some left => simp [after, Room.after]

theorem after_after (sink : Sink) (front back : Bytes) :
    (sink.after front).after back = sink.after (front ++ back) := by
  simp [after, Room.after_after]

end Sink

namespace SaveM

theorem write_iff {encoder : Encoder} {start finish : Saving σ} :
    write encoder start = .ok () finish ↔
      ∃ bytes, encoder.into start.sink.room = ⟨bytes, none⟩ ∧
        finish = ⟨start.world, start.sink.after bytes⟩ := by
  rw [write]
  rcases encoder.into start.sink.room with ⟨bytes, _ | error⟩
  · simp [Sink.after, eq_comm]
  · simp

theorem ask_iff {α : Type} {action : HostM σ α} {value : α} {start finish : Saving σ} :
    ask action start = .ok value finish ↔
      action start.world = .ok value finish.world ∧ finish.sink = start.sink := by
  obtain ⟨world, sink⟩ := finish
  rw [ask]
  cases action start.world with
  | ok result between => simp [eq_comm, and_assoc]
  | error error between => simp

/-- What is done with an answer of the host can be done by the host. -/
theorem ask_map {α β : Type} (action : HostM σ α) (next : α → β) :
    ask (do return next (← action)) = do return next (← ask action) := by
  funext saving
  simp only [ask, bind, EStateM.bind]
  cases action saving.world with
  | ok value world => rfl
  | error error world => rfl

/-! ## Streaming -/

/-- What an action makes is streamed: the action that writes succeeds exactly if the one that makes
an encoder does and the sink takes all that is written, and both leave the same world. -/
def Streams (saving : SaveM σ Unit) (made : RunM σ Encoder) : Prop :=
  ∀ start finish, saving start = .ok () finish ↔
    ∃ encoder bytes, made start.world = .ok encoder finish.world ∧
      encoder.into start.sink.room = ⟨bytes, none⟩ ∧ finish.sink = start.sink.after bytes

namespace Streams

variable {α β : Type}

theorem write (encoder : Encoder) : Streams (σ := σ) (SaveM.write encoder) (pure encoder) := by
  rintro start ⟨world, sink⟩
  rw [write_iff]
  constructor
  · rintro ⟨bytes, written, same⟩
    cases same
    exact ⟨encoder, bytes, rfl, written, rfl⟩
  · rintro ⟨_, bytes, made, written, rfl⟩
    cases made
    exact ⟨bytes, written, rfl⟩

/-- Nothing is streamed by an action that is refused at once. -/
theorem refused (error : FormatError) (failure : RuntimeError) (next : Unit → SaveM σ Unit) :
    Streams (SaveM.write (.fail error) >>= next) (throw failure) := by
  intro start finish
  constructor
  · intro done
    obtain ⟨_, middle, written, -⟩ := Steps.of_bind done
    obtain ⟨bytes, failed, -⟩ := write_iff.mp written
    cases failed
  · rintro ⟨encoder, bytes, made, -⟩
    cases made

/-- What is streamed one after the other is the sequence of what is made. -/
theorem append {first second : SaveM σ Unit} {made others : RunM σ Encoder}
    (start : first.Streams made) (finish : second.Streams others) :
    (first >>= fun _ => second).Streams (do
      let front ← made
      let back ← others
      return front ++ back) := by
  intro before last
  constructor
  · intro done
    obtain ⟨_, middle, one, other⟩ := Steps.of_bind done
    obtain ⟨front, head, madeFront, written, sink⟩ := (start _ _).mp one
    obtain ⟨back, tail, madeBack, writtenBack, sinkBack⟩ := (finish _ _).mp other
    rw [sink] at writtenBack sinkBack
    refine ⟨front ++ back, head ++ tail, ?_, ?_, ?_⟩
    · rw [Steps.bind_ok madeFront, Steps.bind_ok madeBack]
      rfl
    · exact Encoder.append_into_ok.mpr ⟨head, tail, written, writtenBack, rfl⟩
    · rw [sinkBack, Sink.after_after]
  · rintro ⟨_, _, made, written, sink⟩
    obtain ⟨front, between, madeFront, made⟩ := Steps.of_bind made
    obtain ⟨back, _, madeBack, made⟩ := Steps.of_bind made
    cases made
    obtain ⟨head, tail, writtenFront, writtenBack, rfl⟩ := Encoder.append_into_ok.mp written
    have one : first before = .ok () ⟨between, before.sink.after head⟩ :=
      (start _ _).mpr ⟨front, head, madeFront, writtenFront, rfl⟩
    rw [Steps.bind_ok one]
    refine (finish _ _).mpr ⟨back, tail, madeBack, writtenBack, ?_⟩
    rw [Sink.after_after]
    exact sink

/-- The host may be asked before anything is written. -/
theorem ask {action : HostM σ α} {next : α → SaveM σ Unit} {made : α → RunM σ Encoder}
    (streams : ∀ value, (next value).Streams (made value)) :
    (SaveM.ask action >>= next).Streams (action.required >>= made) := by
  intro start finish
  constructor
  · intro done
    obtain ⟨value, middle, asked, done⟩ := Steps.of_bind done
    obtain ⟨answered, kept⟩ := ask_iff.mp asked
    obtain ⟨encoder, bytes, makes, written, sink⟩ := (streams value _ _).mp done
    rw [kept] at written sink
    refine ⟨encoder, bytes, ?_, written, sink⟩
    rw [Steps.bind_ok (HostM.required_ok.mpr answered)]
    exact makes
  · rintro ⟨encoder, bytes, makes, written, sink⟩
    obtain ⟨value, between, answered, makes⟩ := Steps.of_bind makes
    have asked : SaveM.ask action start = .ok value ⟨between, start.sink⟩ :=
      ask_iff.mpr ⟨HostM.required_ok.mp answered, rfl⟩
    rw [Steps.bind_ok asked]
    exact (streams value _ _).mpr ⟨encoder, bytes, makes, written, sink⟩

/-- The world may be looked at before anything is written. -/
theorem look {next : Saving σ → SaveM σ Unit} {made : World σ → RunM σ Encoder}
    (streams : ∀ saving, (next saving).Streams (made saving.world)) :
    (get >>= next).Streams (get >>= made) := by
  intro start finish
  exact streams start start finish

theorem congr {saving : SaveM σ Unit} {made other : RunM σ Encoder} (streams : saving.Streams made)
    (same : ∀ world encoder after,
      made world = .ok encoder after ↔ other world = .ok encoder after) :
    saving.Streams other := by
  intro start finish
  simp only [streams start finish, same]

/-! ### Tables -/

/-- Entries that are made one by one are streamed. -/
theorem each (make : α → HostM σ β) (encode : β → Encoder) (items : List α) :
    Streams (items.forM fun item => do SaveM.write (encode (← SaveM.ask (make item)))) (do
      let made ← (items.mapM make).required
      return Encoder.each made encode) := by
  induction items with
  | nil =>
    rintro start ⟨world, sink⟩
    constructor
    · intro done
      cases done
      exact ⟨Encoder.nothing, [], rfl, rfl, (Sink.after_nil _).symm⟩
    · rintro ⟨_, _, made, written, rfl⟩
      cases made
      cases written
      rw [start.sink.after_nil]
      rfl
  | cons item items ih =>
    have front : ∀ value : β, _ := fun value => (write (σ := σ) (encode value)).append ih
    simp only [pure_bind, bind_assoc] at front
    simp only [List.forM, List.mapM_cons, HostM.required_bind, HostM.required_pure, bind_assoc,
      pure_bind, Encoder.each]
    exact ask front

/-- A table whose entries are made one by one is streamed as a table. -/
theorem table {make : α → HostM σ β} {encode : β → Encoder} {entry : α → SaveM σ Encoder}
    (makes : ∀ item, entry item = do return encode (← SaveM.ask (make item))) (what : String)
    (max : Nat) (items : List α) : (Save.table what max items entry).Streams (do
      let made ← (items.mapM make).required
      return Encoder.table what max made encode) := by
  have streams := (write (σ := σ) (Encoder.count what items.length max)).append
    (each make encode items)
  simp only [pure_bind, bind_assoc] at streams
  simp only [Save.table, makes, bind_assoc, pure_bind]
  -- Whenever the entries are made there are as many of them as there are items.
  refine streams.congr fun world encoder after => ?_
  constructor
  · intro done
    obtain ⟨made, between, all, done⟩ := Steps.of_bind done
    rw [Steps.bind_ok all, Encoder.table, ← (HostM.mapM_ok (HostM.required_ok.mp all)).length_eq]
    exact done
  · intro done
    obtain ⟨made, between, all, done⟩ := Steps.of_bind done
    rw [Encoder.table, ← (HostM.mapM_ok (HostM.required_ok.mp all)).length_eq] at done
    rw [Steps.bind_ok all]
    exact done

end Streams

end SaveM

/-! ## The container of a script -/

/-- The entry of a procedure that was found, with the body that the host compiles for it. -/
def Definition.procedureEntry (host : Host σ) (definition : Definition) :
    HostM σ ProcedureEntry := do
  let body ← host.compileBody definition.source
  return {
    name := definition.name, scope := definition.scope, arguments := definition.arguments, body }

/-- The entry of a class member that was found, with the body that the host compiles for it. -/
def Definition.methodEntry (host : Host σ) (member : MethodKind × String × Definition) :
    HostM σ MethodEntry := do
  let (kind, className, definition) := member
  let body ← host.compileBody definition.source
  return { className, kind, name := definition.name, arguments := definition.arguments, body }

/-- The container of a script: the compiled script, the header that belongs to it, and an entry for
each procedure, class and member of the scan in the order of the scan.  Nothing is written. -/
def Container.ofScript (host : Host σ) (dialect : Dialect) (source : String) :
    RunM σ Container := do
  let scanned := scan source dialect
  let top ← (host.compileScript source).required
  let world ← get
  match Header.forBlock top (host.runtimeVersion world.host) with
  | .error error => throw (.format error)
  | .ok header =>
    let procedures ← (scanned.procedures.mapM (Definition.procedureEntry host)).required
    let methods ← (scanned.membersWithClass.mapM (Definition.methodEntry host)).required
    return { header, top, procedures, classes := scanned.classes.map ClassEntry.mk, methods }

theorem Save.procedureEntry_eq (host : Host σ) (limits : Limits) (definition : Definition) :
    procedureEntry host limits definition = do
      return (← SaveM.ask (definition.procedureEntry host)).encode limits := by
  rw [Definition.procedureEntry, SaveM.ask_map]
  simp only [bind_assoc, pure_bind]
  rfl

theorem Save.methodEntry_eq (host : Host σ) (limits : Limits)
    (member : MethodKind × String × Definition) :
    methodEntry host limits member = do
      return (← SaveM.ask (Definition.methodEntry host member)).encode limits := by
  rw [Definition.methodEntry, SaveM.ask_map]
  simp only [bind_assoc, pure_bind]
  rfl

/-- **A save streams the container of its script.** -/
theorem saveInto_streams (host : Host σ) (options : Options) (source : String) :
    (saveInto host options source).Streams (do
      let container ← Container.ofScript host options.dialect source
      return container.encode options.limits) := by
  simp only [saveInto, Container.ofScript, bind_assoc]
  refine .ask fun top => .look fun saving => ?_
  cases made : Header.forBlock top (host.runtimeVersion saving.world.host) with
  | error error =>
    simp only [Save.opening, made]
    exact .refused error _ _
  | ok header =>
    have classEntry : ∀ name, (return ClassEntry.encode options.limits ⟨name⟩ : SaveM σ Encoder) =
        do return ClassEntry.encode options.limits (← SaveM.ask (pure ⟨name⟩)) := fun _ => rfl
    have procedures := SaveM.Streams.table (Save.procedureEntry_eq host options.limits)
      "procedures" options.limits.maxElements (scan source options.dialect).procedures
    have classes := SaveM.Streams.table classEntry "classes" options.limits.maxElements
      (scan source options.dialect).classes
    have methods := SaveM.Streams.table (Save.methodEntry_eq host options.limits) "methods"
      options.limits.maxElements (scan source options.dialect).membersWithClass
    have opening := SaveM.Streams.write (σ := σ) (header.encode ++ top.encode options.limits)
    have streams := opening.append (procedures.append (classes.append methods))
    simp only [List.mapM_pure, HostM.required_pure, Encoder.append_assoc, bind_assoc, pure_bind]
      at streams
    simp only [Save.opening, made, Container.encode, Encoder.append_assoc, bind_assoc, pure_bind]
    exact streams

/-! ## Saves -/

/-- **A save succeeds exactly if the container of its script can be made and the sink takes all of
its encoding.** -/
theorem save_iff {host : Host σ} {options : Options} {room : Room} {source : String}
    {world after : World σ} {bytes : Bytes} :
    save host options room source world = ⟨after, bytes, none⟩ ↔
      ∃ container, Container.ofScript host options.dialect source world = .ok container after ∧
        (container.encode options.limits).into room = ⟨bytes, none⟩ := by
  have streams := saveInto_streams host options source ⟨world, .ofRoom room⟩
  rw [save]
  constructor
  · intro done
    cases output : saveInto host options source ⟨world, .ofRoom room⟩ with
    | error error finish =>
      rw [output] at done
      cases done
    | ok value finish =>
      rw [output] at done
      cases done
      obtain ⟨encoder, written, made, fits, sink⟩ := (streams finish).mp output
      obtain ⟨container, between, made, same⟩ := Steps.of_bind made
      cases same
      rw [sink]
      exact ⟨container, made, fits⟩
  · rintro ⟨container, made, written⟩
    have output := (streams ⟨after, (Sink.ofRoom room).after bytes⟩).mpr
      ⟨_, bytes, Steps.bind_ok made, written, rfl⟩
    rw [output]
    rfl

/-! ## What the container is made of -/

namespace Save

/-- A block that the host has compiled for a definition. -/
def Compiled (host : Host σ) (definition : Definition) (body : Block) : Prop :=
  ∃ before after, host.compileBody definition.source before = .ok body after

/-- The entry of a procedure that was found. -/
structure ProcedureOf (host : Host σ) (definition : Definition) (entry : ProcedureEntry) :
    Prop where
  name : entry.name = definition.name
  scope : entry.scope = definition.scope
  arguments : entry.arguments = definition.arguments
  body : Compiled host definition entry.body

/-- The entry of a class member that was found. -/
structure MethodOf (host : Host σ) (member : MethodKind × String × Definition)
    (entry : MethodEntry) : Prop where
  className : entry.className = member.2.1
  kind : entry.kind = member.1
  name : entry.name = member.2.2.name
  arguments : entry.arguments = member.2.2.arguments
  body : Compiled host member.2.2 entry.body

theorem procedureOf_made {host : Host σ} {definition : Definition} {entry : ProcedureEntry}
    {before after : World σ}
    (made : definition.procedureEntry host before = .ok entry after) :
    ProcedureOf host definition entry := by
  obtain ⟨body, between, compiled, same⟩ := Steps.of_bind made
  cases same
  exact ⟨rfl, rfl, rfl, _, _, compiled⟩

theorem methodOf_made {host : Host σ} {member : MethodKind × String × Definition}
    {entry : MethodEntry} {before after : World σ}
    (made : Definition.methodEntry host member before = .ok entry after) :
    MethodOf host member entry := by
  obtain ⟨body, between, compiled, same⟩ := Steps.of_bind made
  cases same
  exact ⟨rfl, rfl, rfl, rfl, _, _, compiled⟩

end Save

/-- The container that a script is saved as: its header belongs to its top block, which is the
compiled script, and its tables belong to the definitions and classes of the scan. -/
structure Container.SavedFrom (host : Host σ) (dialect : Dialect) (source : String)
    (world : World σ) (container : Container) : Prop where
  top : ∃ after, host.compileScript source world = .ok container.top after ∧
    Header.forBlock container.top (host.runtimeVersion after.host) = .ok container.header
  procedures : List.Forall₂ (Save.ProcedureOf host) (scan source dialect).procedures
    container.procedures
  classes : List.Forall₂ (fun name entry => entry = ⟨name⟩) (scan source dialect).classes
    container.classes
  methods : List.Forall₂ (Save.MethodOf host) (scan source dialect).membersWithClass
    container.methods

theorem Container.savedFrom_ofScript {host : Host σ} {dialect : Dialect} {source : String}
    {world after : World σ} {container : Container}
    (made : ofScript host dialect source world = .ok container after) :
    container.SavedFrom host dialect source world := by
  obtain ⟨top, between, compiled, made⟩ := Steps.of_bind made
  obtain ⟨_, _, looked, made⟩ := Steps.of_bind made
  cases looked
  cases belongs : Header.forBlock top (host.runtimeVersion between.host) with
  | error error =>
    simp only [belongs] at made
    cases made
  | ok header =>
    simp only [belongs] at made
    obtain ⟨procedures, _, madeProcedures, made⟩ := Steps.of_bind made
    obtain ⟨methods, _, madeMethods, made⟩ := Steps.of_bind made
    cases made
    refine ⟨⟨between, HostM.required_ok.mp compiled, belongs⟩, ?_, ?_, ?_⟩
    · refine (HostM.mapM_ok (HostM.required_ok.mp madeProcedures)).imp ?_
      rintro definition entry ⟨_, _, entered⟩
      exact Save.procedureOf_made entered
    · exact List.forall₂_map_right_iff.mpr (List.forall₂_same.mpr fun _ _ => rfl)
    · refine (HostM.mapM_ok (HostM.required_ok.mp madeMethods)).imp ?_
      rintro member entry ⟨_, _, entered⟩
      exact Save.methodOf_made entered

end CompiledScript
