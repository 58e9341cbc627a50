import CompiledScript.Wire.Field

/-!
# The counter of nested groups

Readers and writers count the groups around the next step.  The counter is part of a
state that every step may change, it is raised and lowered around steps that fail at
any point, and a scratch group starts from a copy of it.  It should still be the
number of groups around the step, which can be read off the tree of steps alone.

A run comes to a step through the steps before it and through the groups around it.
What every step keeps, and every group that is entered raises by one, is then known
wherever the run comes to.  Steps keep the counter because they change nothing of a
reader but what is left to read, and nothing of a writer but its sink.  Work that gives
up somewhere inside of a group is a tree whose group ends there.

So the refusals depend on the place in the tree only, and not on what failed before.
Reading and writing differ in the fields and in the scratch groups, and what is said
here of the counter is said of both at once.
-/

set_option autoImplicit false

namespace CompiledScript

/-- Steps of one kind that can be set in groups, and how they are run on a state that counts the
groups around the next step. -/
structure Grouping (Step State Answer : Type) where
  run : Step → State → Answer × Bool × State
  runAll : List Step → State → List Answer × Bool × State
  /-- Steps set one nesting level deeper. -/
  nested : List Step → Step
  /-- The steps that a step runs apart from the others, and the state they start in. -/
  apart? : Step → State → Option (List Step × State)
  refused : FormatError → Answer
  group : List Answer → Answer
  limits : State → Limits
  depth : State → Nat
  atDepth : Nat → State → State

namespace Grouping

def reading : Grouping ReadStep Reader ReadAnswer where
  run := ReadStep.run
  runAll := ReadStep.runAll
  nested := .nested
  apart? _ _ := none
  refused := .refused
  group := .group
  limits := Reader.limits
  depth := Reader.depth
  atDepth depth reader := { reader with depth }

def writing : Grouping WriteStep Writer WriteAnswer where
  run := WriteStep.run
  runAll := WriteStep.runAll
  nested := .nested
  apart?
    | .scratch steps, writer => some (steps, { writer with room := none, written := [] })
    | _, _ => none
  refused := .refused
  group := .group
  limits := Writer.limits
  depth := Writer.depth
  atDepth depth writer := { writer with depth }

variable {Step State Answer : Type} (kind : Grouping Step State Answer)

/-! ## Where a run comes to -/

/-- The steps inside of a step that are run, how many nested calls are opened for them, and the
state they start in.  The steps of a nested call have been run if they are answered. -/
inductive Enters : Step → State → Nat → List Step → State → Prop where
  | nested {steps : List Step} {state : State} {answers : List Answer} :
      (kind.run (kind.nested steps) state).1 = kind.group answers →
        Enters (kind.nested steps) state 1 steps (kind.atDepth (kind.depth state + 1) state)
  | apart {step : Step} {state start : State} {steps : List Step} :
      kind.apart? step state = some (steps, start) → Enters step state 0 steps start

/-- A run of some steps comes to a step, with so many nested calls around it and in a given
state.  One step follows another unless the stream has given out. -/
inductive Reached : List Step → State → Nat → Step → State → Prop where
  | here (step : Step) (steps : List Step) (state : State) :
      Reached (step :: steps) state 0 step state
  | later {first step : Step} {steps : List Step} {state current : State} {enclosing : Nat} :
      (kind.run first state).2.1 = false →
        Reached steps (kind.run first state).2.2 enclosing step current →
          Reached (first :: steps) state enclosing step current
  | inside {first step : Step} {steps body : List Step} {state start current : State}
      {opened enclosing : Nat} :
      kind.Enters first state opened body start →
        Reached body start enclosing step current →
          Reached (first :: steps) state (opened + enclosing) step current

variable {kind}

/-- What steps keep, and what is raised for the steps inside of one by the calls opened for them,
is raised wherever a run comes to by the calls around the place. -/
theorem Reached.raised (holds : Nat → State → Prop)
    (kept : ∀ level step state, holds level state → holds level (kind.run step state).2.2)
    (raised : ∀ level step state opened body start, holds level state →
      kind.Enters step state opened body start → holds (level + opened) start)
    {steps : List Step} {state current : State} {enclosing : Nat} {step : Step}
    (reached : kind.Reached steps state enclosing step current) {level : Nat}
    (start : holds level state) : holds (level + enclosing) current := by
  induction reached generalizing level with
  | here step steps state => exact start
  | later _ _ ih => exact ih (kept level _ _ start)
  | inside entered _ ih =>
    rw [← Nat.add_assoc]
    exact ih (raised level _ _ _ _ _ start entered)

/-! ## What keeps the counter right -/

/-- Steps leave the counter and the limits as they were, nested calls are counted while their
steps are run, and steps that are run apart start with the same counter. -/
structure Counts (kind : Grouping Step State Answer) : Prop where
  run_limits : ∀ step state, kind.limits (kind.run step state).2.2 = kind.limits state
  run_depth : ∀ step state, kind.depth (kind.run step state).2.2 = kind.depth state
  run_opened : ∀ steps state, kind.depth state < (kind.limits state).maxDepth →
    kind.run (kind.nested steps) state =
      let (answers, stopped, last) := kind.runAll steps (kind.atDepth (kind.depth state + 1) state)
      (kind.group answers, stopped, kind.atDepth (kind.depth state) last)
  run_refused : ∀ steps state, ¬ kind.depth state < (kind.limits state).maxDepth →
    kind.run (kind.nested steps) state =
      (kind.refused (.nestingTooDeep (kind.limits state).maxDepth), false, state)
  group_ne_refused : ∀ answers error, kind.group answers ≠ kind.refused error
  atDepth_limits : ∀ depth state, kind.limits (kind.atDepth depth state) = kind.limits state
  atDepth_depth : ∀ depth state, kind.depth (kind.atDepth depth state) = depth
  apart_limits : ∀ step state steps start, kind.apart? step state = some (steps, start) →
    kind.limits start = kind.limits state
  apart_depth : ∀ step state steps start, kind.apart? step state = some (steps, start) →
    kind.depth start = kind.depth state
  apart_nested : ∀ steps state, kind.apart? (kind.nested steps) state = none

/-- What becomes of the counter, and of a nested call, at a step with so many nested calls
around it. -/
structure Counted (kind : Grouping Step State Answer) (limits : Limits) (enclosing : Nat)
    (step : Step) (state : State) : Prop where
  /-- The counter is the number of calls around the step, which is within the bound. -/
  level : kind.depth state = enclosing
  bounded : enclosing ≤ limits.maxDepth
  /-- However the step ends, it leaves the counter as it was. -/
  restored : kind.depth (kind.run step state).2.2 = kind.depth state
  /-- A nested call is refused, and the state not touched, exactly at the bound. -/
  refused : ∀ steps, step = kind.nested steps →
    (kind.run step state = (kind.refused (.nestingTooDeep limits.maxDepth), false, state) ↔
      enclosing = limits.maxDepth)
  /-- The steps of a call that is refused are not run. -/
  closed : ∀ steps, step = kind.nested steps → enclosing = limits.maxDepth →
    ∀ opened body start, ¬ kind.Enters step state opened body start
  /-- Any other nested call runs its steps one level deeper. -/
  opened : ∀ steps, step = kind.nested steps → enclosing < limits.maxDepth →
    ∃ answers stopped last,
      kind.runAll steps (kind.atDepth (enclosing + 1) state) = (answers, stopped, last) ∧
        kind.run step state = (kind.group answers, stopped, kind.atDepth enclosing last)

/-- The counter of a state is the number of calls around the next step and within the bound. -/
structure Level (kind : Grouping Step State Answer) (limits : Limits) (level : Nat)
    (state : State) : Prop where
  bounds : kind.limits state = limits
  depth : kind.depth state = level
  bounded : level ≤ limits.maxDepth

namespace Counts

variable {limits : Limits} {level : Nat} {state : State}

theorem kept (counts : kind.Counts) (here : kind.Level limits level state) (step : Step) :
    kind.Level limits level (kind.run step state).2.2 where
  bounds := (counts.run_limits step state).trans here.bounds
  depth := (counts.run_depth step state).trans here.depth
  bounded := here.bounded

/-- Only calls above the bound are entered, so the level inside is still within it. -/
theorem raised (counts : kind.Counts) (here : kind.Level limits level state) {step : Step}
    {opened : Nat} {body : List Step} {start : State}
    (entered : kind.Enters step state opened body start) :
    kind.Level limits (level + opened) start := by
  cases entered with
  | @nested _ _ answers answered =>
    -- An answer from inside shows that the call was not refused.
    have below : kind.depth state < (kind.limits state).maxDepth := by
      apply Decidable.byContradiction
      intro deep
      rw [counts.run_refused _ _ deep] at answered
      exact counts.group_ne_refused _ _ answered.symm
    refine ⟨(counts.atDepth_limits _ _).trans here.bounds, ?_, ?_⟩
    · rw [counts.atDepth_depth, here.depth]
    · rw [here.depth, here.bounds] at below
      exact below
  | apart found =>
    exact ⟨(counts.apart_limits _ _ _ _ found).trans here.bounds,
      (counts.apart_depth _ _ _ _ found).trans here.depth, here.bounded⟩

/-- Where the counter is right, nested calls are refused by the number of calls around them. -/
theorem counted (counts : kind.Counts) (here : kind.Level limits level state) (step : Step) :
    kind.Counted limits level step state := by
  obtain ⟨rfl, rfl, bounded⟩ := here
  have deep : kind.depth state = (kind.limits state).maxDepth → ∀ steps,
      kind.run (kind.nested steps) state =
        (kind.refused (.nestingTooDeep (kind.limits state).maxDepth), false, state) :=
    fun most steps => counts.run_refused steps state (Nat.not_lt.mpr (Nat.le_of_eq most.symm))
  refine ⟨rfl, bounded, counts.run_depth step state, ?_, ?_, ?_⟩
  · rintro steps rfl
    constructor
    · intro refused
      rcases Nat.lt_or_eq_of_le bounded with below | most
      · rw [counts.run_opened steps state below] at refused
        exact (counts.group_ne_refused _ _ (congrArg Prod.fst refused)).elim
      · exact most
    · exact fun most => deep most steps
  · rintro steps rfl most opened body start entered
    generalize same : kind.nested steps = step at entered
    cases entered with
    | nested answered =>
      rw [deep most] at answered
      exact counts.group_ne_refused _ _ answered.symm
    | apart found =>
      rw [← same, counts.apart_nested] at found
      cases found
  · rintro steps rfl below
    exact ⟨_, _, _, rfl, counts.run_opened steps state below⟩

/-- **Along a run that starts outside of all groups the counter is right everywhere.** -/
theorem counted_of_reached (counts : kind.Counts) {steps : List Step} {start current : State}
    {enclosing : Nat} {step : Step} (outside : kind.Level limits 0 start)
    (reached : kind.Reached steps start enclosing step current) :
    kind.Counted limits enclosing step current := by
  have here := reached.raised (kind.Level limits) (fun _ step _ here => counts.kept here step)
    (fun _ _ _ _ _ _ here entered => counts.raised here entered) outside
  rw [Nat.zero_add] at here
  exact counts.counted here step

end Counts

end Grouping

/-! ## Reading -/

namespace ReadStep

mutual

/-- A step of reading changes nothing of a reader but what is left to read. -/
theorem run_frame : ∀ (step : ReadStep) (reader : Reader),
    (step.run reader).2.2 = { reader with rest := (step.run reader).2.2.rest }
  | .field wanted, reader => by
    rw [ReadStep.run]
    split
    · rfl
    · rfl
  | .nested steps, reader => by
    have inner := runAll_frame steps { reader with depth := reader.depth + 1 }
    rw [ReadStep.run]
    split
    · simp only
      rw [inner]
      rfl
    · rfl

theorem runAll_frame : ∀ (steps : List ReadStep) (reader : Reader),
    (runAll steps reader).2.2 = { reader with rest := (runAll steps reader).2.2.rest }
  | [], reader => rfl
  | step :: steps, reader => by
    have first := run_frame step reader
    have others := runAll_frame steps (step.run reader).2.2
    rw [runAll]
    simp only
    split
    · exact first
    · simp only
      rw [others, first]

end

@[simp] theorem run_limits (step : ReadStep) (reader : Reader) :
    (step.run reader).2.2.limits = reader.limits := by
  rw [run_frame]

@[simp] theorem run_depth (step : ReadStep) (reader : Reader) :
    (step.run reader).2.2.depth = reader.depth := by
  rw [run_frame]

@[simp] theorem runAll_depth (steps : List ReadStep) (reader : Reader) :
    (runAll steps reader).2.2.depth = reader.depth := by
  rw [runAll_frame]

/-- A group that is not too deep is run one level deeper, and afterwards the level is the one
from before, whatever became of its steps. -/
theorem run_nested_of_lt {reader : Reader} (below : reader.depth < reader.limits.maxDepth)
    (steps : List ReadStep) :
    (nested steps).run reader =
      let (answers, stopped, last) := runAll steps { reader with depth := reader.depth + 1 }
      (.group answers, stopped, { last with depth := reader.depth }) := by
  simp only [ReadStep.run, if_pos below, runAll_depth, Nat.add_sub_cancel]

theorem run_nested_of_not_lt {reader : Reader} (deep : ¬ reader.depth < reader.limits.maxDepth)
    (steps : List ReadStep) :
    (nested steps).run reader =
      (.refused (.nestingTooDeep reader.limits.maxDepth), false, reader) := by
  rw [ReadStep.run, if_neg deep]

end ReadStep

theorem Grouping.counts_reading : reading.Counts where
  run_limits := ReadStep.run_limits
  run_depth := ReadStep.run_depth
  run_opened steps _ below := ReadStep.run_nested_of_lt below steps
  run_refused steps _ deep := ReadStep.run_nested_of_not_lt deep steps
  group_ne_refused _ _ same := by cases same
  atDepth_limits _ _ := rfl
  atDepth_depth _ _ := rfl
  apart_limits _ _ _ _ found := by cases found
  apart_depth _ _ _ _ found := by cases found
  apart_nested _ _ := rfl

/-! ## Writing -/

namespace WriteStep

mutual

/-- A step of writing changes nothing of a writer but its sink. -/
theorem run_frame : ∀ (step : WriteStep) (writer : Writer),
    (step.run writer).2.2 =
      { writer with
        room := (step.run writer).2.2.room
        written := (step.run writer).2.2.written }
  | .field given, writer => by
    rw [WriteStep.run]
    split
    · rename_i put
      rw [Writer.put, Prod.mk.injEq] at put
      rw [← put.2]
    · rename_i put
      rw [Writer.put, Prod.mk.injEq] at put
      rw [← put.2]
  | .flush, writer => rfl
  | .nested steps, writer => by
    have inner := runAll_frame steps { writer with depth := writer.depth + 1 }
    rw [WriteStep.run]
    split
    · simp only
      rw [inner]
      rfl
    · rfl
  | .scratch steps, writer => rfl

theorem runAll_frame : ∀ (steps : List WriteStep) (writer : Writer),
    (runAll steps writer).2.2 =
      { writer with
        room := (runAll steps writer).2.2.room
        written := (runAll steps writer).2.2.written }
  | [], writer => rfl
  | step :: steps, writer => by
    have first := run_frame step writer
    have others := runAll_frame steps (step.run writer).2.2
    rw [runAll]
    simp only
    split
    · exact first
    · simp only
      rw [others, first]

end

@[simp] theorem run_limits (step : WriteStep) (writer : Writer) :
    (step.run writer).2.2.limits = writer.limits := by
  rw [run_frame]

@[simp] theorem run_depth (step : WriteStep) (writer : Writer) :
    (step.run writer).2.2.depth = writer.depth := by
  rw [run_frame]

@[simp] theorem runAll_depth (steps : List WriteStep) (writer : Writer) :
    (runAll steps writer).2.2.depth = writer.depth := by
  rw [runAll_frame]

/-- A group that is not too deep is run one level deeper, and afterwards the level is the one
from before, whatever became of its steps. -/
theorem run_nested_of_lt {writer : Writer} (below : writer.depth < writer.limits.maxDepth)
    (steps : List WriteStep) :
    (nested steps).run writer =
      let (answers, stopped, last) := runAll steps { writer with depth := writer.depth + 1 }
      (.group answers, stopped, { last with depth := writer.depth }) := by
  simp only [WriteStep.run, if_pos below, runAll_depth, Nat.add_sub_cancel]

theorem run_nested_of_not_lt {writer : Writer} (deep : ¬ writer.depth < writer.limits.maxDepth)
    (steps : List WriteStep) :
    (nested steps).run writer =
      (.refused (.nestingTooDeep writer.limits.maxDepth), false, writer) := by
  rw [WriteStep.run, if_neg deep]

end WriteStep

/-- Scratch groups start with the counter of the writer they are run beside. -/
theorem Grouping.counts_writing : writing.Counts where
  run_limits := WriteStep.run_limits
  run_depth := WriteStep.run_depth
  run_opened steps _ below := WriteStep.run_nested_of_lt below steps
  run_refused steps _ deep := WriteStep.run_nested_of_not_lt deep steps
  group_ne_refused _ _ same := by cases same
  atDepth_limits _ _ := rfl
  atDepth_depth _ _ := rfl
  apart_limits step _ _ _ found := by
    cases step with
    | scratch steps =>
      cases found
      rfl
    | field _ | flush | nested _ => cases found
  apart_depth step _ _ _ found := by
    cases step with
    | scratch steps =>
      cases found
      rfl
    | field _ | flush | nested _ => cases found
  apart_nested _ _ := rfl

/-! ## Trees of steps -/

/-- **The counter is the number of nested calls around a step, wherever a run of reading or of
writing comes to.**  Whatever failed before it, every step leaves the counter as it was, and a
nested call is refused with nothing run or touched exactly when as many calls as the bound
admits stand around it, those around a scratch group among them. -/
theorem nested_calls_counted (limits : Limits) :
    (∀ steps input enclosing step reader,
      Grouping.reading.Reached steps ⟨limits, 0, input⟩ enclosing step reader →
        Grouping.reading.Counted limits enclosing step reader) ∧
    (∀ steps room written enclosing step writer,
      Grouping.writing.Reached steps ⟨limits, 0, room, written⟩ enclosing step writer →
        Grouping.writing.Counted limits enclosing step writer) := by
  constructor
  · intro steps input enclosing step reader reached
    exact Grouping.counts_reading.counted_of_reached ⟨rfl, rfl, Nat.zero_le _⟩ reached
  · intro steps room written enclosing step writer reached
    exact Grouping.counts_writing.counted_of_reached ⟨rfl, rfl, Nat.zero_le _⟩ reached

/-- Limits that admit two nested calls around a step. -/
def twoDeep : Limits := { maxDepth := 2 }

/-- Where only two calls may be nested, a third one is refused behind a truth value that was, and
so is one in a scratch group of a call, behind a length that was. -/
theorem nested_calls_counted_three :
    (∃ steps reader, Grouping.reading.Reached steps ⟨twoDeep, 0, [2, 9]⟩ 2
        (.nested [.field .byte]) reader ∧ reader.rest = [9] ∧
      (ReadStep.nested [.field .byte]).run reader = (.refused (.nestingTooDeep 2), false, reader)) ∧
    (∃ steps writer, Grouping.writing.Reached steps ⟨twoDeep, 0, some 3, []⟩ 2
        (.nested []) writer ∧ writer.written = [] ∧
      (WriteStep.nested []).run writer = (.refused (.nestingTooDeep 2), false, writer)) := by
  constructor
  · have third : Grouping.reading.Reached
        [.nested [.field .boolean, .nested [.nested [.field .byte]]]] ⟨twoDeep, 0, [2, 9]⟩
        (1 + (1 + 0)) (.nested [.field .byte]) ⟨twoDeep, 2, [9]⟩ :=
      .inside (.nested rfl) (.later rfl (.inside (.nested rfl) (.here _ _ _)))
    refine ⟨_, _, third, rfl, ?_⟩
    exact (((nested_calls_counted twoDeep).1 _ _ _ _ _ third).refused _ rfl).mpr rfl
  · have third : Grouping.writing.Reached
        [.nested [.field (.count "list" 5 4), .scratch [.nested [.nested []]]]]
        ⟨twoDeep, 0, some 3, []⟩ (1 + (0 + (1 + 0))) (.nested []) ⟨twoDeep, 2, none, []⟩ :=
      .inside (.nested rfl)
        (.later rfl (.inside (.apart rfl) (.inside (.nested rfl) (.here _ _ _))))
    refine ⟨_, _, third, rfl, ?_⟩
    exact (((nested_calls_counted twoDeep).2 _ _ _ _ _ _ third).refused _ rfl).mpr rfl

end CompiledScript
