import CompiledScript.Proofs.Wire.Nesting
import CompiledScript.Proofs.Wire.Recovery
import CompiledScript.Proofs.Wire.Room

/-!
# Reading step by step what was written step by step

Every step of writing has steps of reading that ask for what it wrote: a field for a
field of its kind, a run of bytes for a run of its length, a group for a group.  What
reaches no sink asks for nothing.  When all steps of a tree succeed, the mirrored tree
finds in the output what was written, in the same order, and leaves what follows.

The proof is by induction on the tree of steps.  A step appends bytes to what was
written before, in a sink that may have any room, and its mirror image takes just these
bytes off any input that starts with them.  Both sides count the groups around a step in
the same way, so a group that was not too deep to be written is not too deep to be read.
-/

set_option autoImplicit false

namespace CompiledScript

/-! ## Fields -/

namespace WriteField

/-- The field to be read where this one was written. -/
def mirror : WriteField → ReadField
  | byte _ => .byte
  | word16 _ => .word16
  | word32 _ => .word32
  | word64 _ => .word64
  | int64 _ => .int64
  | boolean _ => .boolean
  | count what _ max => .count what max
  | raw contents => .run contents.length
  | bytes what _ => .bytes what
  | text what _ => .text what

/-- What is found there. -/
def value : WriteField → FieldValue
  | byte value => .byte value
  | word16 value => .word16 value
  | word32 value => .word32 value
  | word64 value => .word64 value
  | int64 value => .int64 value
  | boolean value => .boolean value
  | count _ length _ => .count length
  | raw contents => .bytes contents
  | bytes _ value => .bytes value
  | text _ value => .text value

open Decoder in
theorem restores_encode (limits : Limits) (given : WriteField) :
    (given.mirror.decode limits).Restores (given.encode limits) (· = given.value) := by
  cases given with
  | byte value => exact (restores_byte value).last fun _ same => congrArg _ same
  | word16 value => exact (restores_word16 value).last fun _ same => congrArg _ same
  | word32 value => exact (restores_word32 value).last fun _ same => congrArg _ same
  | word64 value => exact (restores_word64 value).last fun _ same => congrArg _ same
  | int64 value => exact (restores_int64 value).last fun _ same => congrArg _ same
  | boolean value => exact (restores_boolean value).last fun _ same => congrArg _ same
  | count what length max => exact restores_count.last fun _ same => congrArg _ same
  | raw contents => exact (restores_run contents).last fun _ same => congrArg _ same
  | bytes what value => exact (restores_bytes value).last fun _ same => congrArg _ same
  | text what value => exact (restores_text value).last fun _ same => congrArg _ same

open Encoder in
theorem steady_encode (limits : Limits) (given : WriteField) : (given.encode limits).Steady := by
  cases given with
  | byte value => exact steady_byte value
  | word16 value => exact steady_word16 value
  | word32 value => exact steady_word32 value
  | word64 value => exact steady_word64 value
  | int64 value => exact steady_int64 value
  | boolean value => exact steady_boolean value
  | count what length max => exact steady_count what length max
  | raw contents => exact steady_raw contents
  | bytes what value => exact steady_bytes limits what value
  | text what value => exact steady_text limits what value

/-- A field that a sink has taken is found again in front of whatever follows it. -/
theorem decode_of_written {limits : Limits} {given : WriteField} {room : Room} {bytes : Bytes}
    (written : (given.encode limits).into room = ⟨bytes, none⟩) (rest : Bytes) :
    given.mirror.decode limits (bytes ++ rest) = .ok given.value rest := by
  have whole := (steady_encode limits given).writes written
  obtain ⟨value, read, rfl⟩ := restores_encode limits given bytes whole
  exact read rest

end WriteField

/-! ## Steps -/

mutual

/-- Whether a step and all steps inside of it succeeded. -/
def WriteAnswer.succeeded : WriteAnswer → Bool
  | .done => true
  | .refused _ => false
  | .group answers => WriteAnswer.allSucceeded answers
  | .scratch answers _ => WriteAnswer.allSucceeded answers

def WriteAnswer.allSucceeded : List WriteAnswer → Bool
  | [] => true
  | answer :: answers => answer.succeeded && WriteAnswer.allSucceeded answers

end

namespace WriteStep

mutual

/-- The steps of reading for what a step has written. -/
def mirror : WriteStep → List ReadStep
  | .field given => [.field given.mirror]
  | .flush => []
  | .nested steps => [.nested (mirrorAll steps)]
  | .scratch _ => []

def mirrorAll : List WriteStep → List ReadStep
  | [] => []
  | step :: steps => step.mirror ++ mirrorAll steps

end

mutual

/-- What these steps find. -/
def found : WriteStep → List ReadAnswer
  | .field given => [.value given.value]
  | .flush => []
  | .nested steps => [.group (foundAll steps)]
  | .scratch _ => []

def foundAll : List WriteStep → List ReadAnswer
  | [] => []
  | step :: steps => step.found ++ foundAll steps

end

end WriteStep

/-! ## One step after the other -/

namespace ReadStep

theorem runAll_cons_of_going {step : ReadStep} {reader : Reader}
    (going : (step.run reader).2.1 = false) (steps : List ReadStep) :
    runAll (step :: steps) reader =
      ((step.run reader).1 :: (runAll steps (step.run reader).2.2).1,
        (runAll steps (step.run reader).2.2).2) := by
  simp [runAll, going]

theorem runAll_cons_of_stopped {step : ReadStep} {reader : Reader}
    (stopped : (step.run reader).2.1 = true) (steps : List ReadStep) :
    runAll (step :: steps) reader = ([(step.run reader).1], true, (step.run reader).2.2) := by
  simp [runAll, stopped]

/-- Steps that do not stop are followed by the steps behind them. -/
theorem runAll_append {first : List ReadStep} {reader middle : Reader} {answers : List ReadAnswer}
    (start : runAll first reader = (answers, false, middle)) (second : List ReadStep) :
    runAll (first ++ second) reader =
      (answers ++ (runAll second middle).1, (runAll second middle).2) := by
  induction first generalizing reader answers with
  | nil =>
    cases start
    rfl
  | cons step steps ih =>
    cases going : (step.run reader).2.1 with
    | true =>
      rw [runAll_cons_of_stopped going] at start
      cases start
    | false =>
      rw [runAll_cons_of_going going] at start
      obtain ⟨rfl, others⟩ := Prod.mk.inj start
      have tail : runAll steps (step.run reader).2.2 =
          ((runAll steps (step.run reader).2.2).1, false, middle) := Prod.ext rfl others
      rw [List.cons_append, runAll_cons_of_going going, ih tail]
      rfl

end ReadStep

/-! ## What reaches the sink -/

/-- From one writer to another some bytes have been appended, off which these steps of reading find
these answers, with nothing of what follows the bytes. -/
def Delivered (start last : Writer) (steps : List ReadStep) (answers : List ReadAnswer) : Prop :=
  ∃ bytes, last.written = start.written ++ bytes ∧
    ∀ rest, ReadStep.runAll steps ⟨start.limits, start.depth, bytes ++ rest⟩ =
      (answers, false, ⟨start.limits, start.depth, rest⟩)

namespace Delivered

theorem nothing {start last : Writer} (same : last.written = start.written) :
    Delivered start last [] [] :=
  ⟨[], by rw [same, List.append_nil], fun _ => rfl⟩

/-- What is delivered in two parts is found in two parts. -/
theorem append {start middle last : Writer} {first second : List ReadStep}
    {front back : List ReadAnswer} (before : Delivered start middle first front)
    (limits : middle.limits = start.limits) (depth : middle.depth = start.depth)
    (after : Delivered middle last second back) :
    Delivered start last (first ++ second) (front ++ back) := by
  obtain ⟨some, written, readFront⟩ := before
  obtain ⟨more, appended, readBack⟩ := after
  refine ⟨some ++ more, by rw [appended, written, List.append_assoc], fun rest => ?_⟩
  have finish := readBack rest
  rw [limits, depth] at finish
  rw [List.append_assoc, ReadStep.runAll_append (readFront (more ++ rest)), finish]

/-- What is delivered in a group is found in a group. -/
theorem group {start last : Writer} {steps : List ReadStep} {answers : List ReadAnswer}
    (below : start.depth < start.limits.maxDepth)
    (inside : Delivered { start with depth := start.depth + 1 } last steps answers) :
    Delivered start { last with depth := start.depth } [.nested steps] [.group answers] := by
  obtain ⟨bytes, written, read⟩ := inside
  refine ⟨bytes, written, fun rest => ?_⟩
  have whole : (ReadStep.nested steps).run ⟨start.limits, start.depth, bytes ++ rest⟩ =
      (.group answers, false, ⟨start.limits, start.depth, rest⟩) := by
    rw [ReadStep.run_nested_of_lt below, read rest]
  rw [ReadStep.runAll_cons_of_going (by rw [whole]), whole]
  rfl

/-- A field that the sink has taken is found. -/
theorem field {writer last : Writer} {given : WriteField}
    (put : writer.put (given.encode writer.limits) = (none, last)) :
    Delivered writer last [.field given.mirror] [.value given.value] := by
  obtain ⟨taken, rfl⟩ := Prod.mk.inj put
  refine ⟨_, rfl, fun rest => ?_⟩
  have whole : (given.encode writer.limits).into writer.room =
      ⟨((given.encode writer.limits).into writer.room).bytes, none⟩ := by
    rw [← taken]
  have read := WriteField.decode_of_written whole rest
  have found : (ReadStep.field given.mirror).run ⟨writer.limits, writer.depth,
      ((given.encode writer.limits).into writer.room).bytes ++ rest⟩ =
        (.value given.value, false, ⟨writer.limits, writer.depth, rest⟩) := by
    rw [ReadStep.run, read]
  rw [ReadStep.runAll_cons_of_going (by rw [found]), found]
  rfl

end Delivered

/-! ## Trees of steps -/

namespace WriteStep

theorem runAll_cons_of_going {step : WriteStep} {writer : Writer}
    (going : (step.run writer).2.1 = false) (steps : List WriteStep) :
    runAll (step :: steps) writer =
      ((step.run writer).1 :: (runAll steps (step.run writer).2.2).1,
        (runAll steps (step.run writer).2.2).2) := by
  simp [runAll, going]

/-- Of steps that all succeed the first one does, whether or not it stopped the others. -/
theorem succeeded_of_allSucceeded {step : WriteStep} {steps : List WriteStep} {writer : Writer}
    (success : WriteAnswer.allSucceeded (runAll (step :: steps) writer).1 = true) :
    (step.run writer).1.succeeded = true := by
  cases going : (step.run writer).2.1 with
  | true =>
    simp only [runAll, going, if_true, WriteAnswer.allSucceeded, Bool.and_true] at success
    exact success
  | false =>
    rw [runAll_cons_of_going going, WriteAnswer.allSucceeded, Bool.and_eq_true] at success
    exact success.1

-- The induction is on the tree of steps.  It carries that nothing has stopped, since only then
-- are the steps behind a step run at all.
mutual

/-- A step that succeeds does not stop the steps behind it, and delivers what its mirror image
finds. -/
theorem delivered_of_succeeded : ∀ (step : WriteStep) (writer : Writer),
    (step.run writer).1.succeeded = true →
      (step.run writer).2.1 = false ∧
        Delivered writer (step.run writer).2.2 step.mirror step.found
  | .field given, writer, success => by
    rw [WriteStep.run] at success ⊢
    split at success
    · rename_i put
      exact ⟨rfl, .field put⟩
    · cases success
  | .flush, writer, success => ⟨rfl, .nothing rfl⟩
  | .nested steps, writer, success => by
    by_cases below : writer.depth < writer.limits.maxDepth
    · rw [run_nested_of_lt below] at success ⊢
      obtain ⟨going, inside⟩ := delivered_of_allSucceeded steps _ success
      exact ⟨going, inside.group below⟩
    · rw [run_nested_of_not_lt below] at success
      cases success
  | .scratch steps, writer, success => by
    rw [WriteStep.run] at success ⊢
    exact ⟨(delivered_of_allSucceeded steps _ success).1, .nothing rfl⟩

theorem delivered_of_allSucceeded : ∀ (steps : List WriteStep) (writer : Writer),
    WriteAnswer.allSucceeded (runAll steps writer).1 = true →
      (runAll steps writer).2.1 = false ∧
        Delivered writer (runAll steps writer).2.2 (mirrorAll steps) (foundAll steps)
  | [], writer, success => ⟨rfl, .nothing rfl⟩
  | step :: steps, writer, success => by
    obtain ⟨going, first⟩ :=
      delivered_of_succeeded step writer (succeeded_of_allSucceeded success)
    rw [runAll_cons_of_going going, WriteAnswer.allSucceeded, Bool.and_eq_true] at success
    obtain ⟨further, others⟩ := delivered_of_allSucceeded steps _ success.2
    rw [runAll_cons_of_going going]
    exact ⟨further, first.append (run_limits step writer) (run_depth step writer) others⟩

end

end WriteStep

/-- **What was written step by step is read back step by step.**  If all steps of a tree succeed,
in a sink of any room, then under the same limits the mirrored steps find the values that were
written, in their order and in the same groups, and leave what follows the output. -/
theorem mirrored_steps_read_back (limits : Limits) (room : Room) (steps : List WriteStep)
    (success : WriteAnswer.allSucceeded
      (WriteStep.runAll steps ⟨limits, 0, room, []⟩).1 = true) (rest : Bytes) :
    ReadStep.runAll (WriteStep.mirrorAll steps)
        ⟨limits, 0, (WriteStep.runAll steps ⟨limits, 0, room, []⟩).2.2.written ++ rest⟩ =
      (WriteStep.foundAll steps, false, ⟨limits, 0, rest⟩) := by
  obtain ⟨-, bytes, written, read⟩ := WriteStep.delivered_of_allSucceeded steps _ success
  rw [written]
  exact read rest

/-- One field of each kind, some of them in groups, one of which is empty, at the ends of their
ranges and as deep as the limits admit. -/
def everyField : List WriteStep :=
  [.field (.byte 255),
    .nested [.field (.word16 65534), .nested [.field (.word32 4294967295), .nested []], .flush,
      .field (.word64 72057594037927936)],
    .field (.int64 (-9223372036854775808)),
    .scratch [.field (.byte 1)],
    .nested [.field (.boolean true), .field (.count "list" 4 4), .field (.raw [0, 0, 1])],
    .field (.bytes "byte string" [254]), .field (.text "text string" "é\n")]

/-- Limits that admit three groups in one another and texts of three bytes. -/
def tightLimits : Limits := { maxDepth := 3, maxStringLength := 3 }

theorem mirrored_steps_read_back_everyField :
    WriteAnswer.allSucceeded
        (WriteStep.runAll everyField ⟨tightLimits, 0, some 43, []⟩).1 = true ∧
      ReadStep.runAll (WriteStep.mirrorAll everyField)
          ⟨tightLimits, 0,
            (WriteStep.runAll everyField ⟨tightLimits, 0, some 43, []⟩).2.2.written ++ [7]⟩ =
        (WriteStep.foundAll everyField, false, ⟨tightLimits, 0, [7]⟩) := by
  have success : WriteAnswer.allSucceeded
      (WriteStep.runAll everyField ⟨tightLimits, 0, some 43, []⟩).1 = true := by decide +kernel
  exact ⟨success, mirrored_steps_read_back _ _ everyField success [7]⟩

end CompiledScript
