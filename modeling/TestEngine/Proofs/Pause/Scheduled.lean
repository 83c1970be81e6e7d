import TestEngine.Proofs.Machine.Course
import TestEngine.Proofs.Pause.Solo

/-!
# Machines with a task of their own

A machine that polls one task and nothing else takes it through a solo course: a poll is a series of
the task's requests up to the first that has to wait. So it is with a machine that has a single task
and runs to its end.
-/

namespace TestEngine

variable {ω α : Type}

/-! ### Polls -/

namespace Situation

variable {registry : Registry ω} {permits : Signal → Prop} {first last : Situation ω α}
  {trace : List Request}

theorem Solo.advance (call : Nat) {session : Session} {world : World ω} {program : Program α}
    (course : Solo registry permits first trace ⟨session, world, .ready program⟩) :
    Solo registry permits first
      (trace ++ (program.asks registry call session world).map Asked.request)
      (program.advance registry session world) := by
  induction program generalizing session world trace with
  | done value => simpa [Program.asks, Program.advance] using course.finish
  | ask request next ih =>
      have asked := course.ask
      rw [Carried.situation] at asked
      simp only [Program.advance, Program.asks, List.map_cons]
      cases outcome : (request.carryOut registry session world).outcome with
      | answered answer =>
          rw [outcome] at asked
          simpa using ih answer asked
      | waiting wait =>
          rw [outcome] at asked
          exact asked

theorem Solo.poll (course : Solo registry permits first trace last) (call : Nat) :
    Solo registry permits first
      (trace ++ (last.stage.asks registry call last.session last.world).map Asked.request)
      (last.stage.poll registry last.session last.world) := by
  rcases last with ⟨session, world, program | ⟨wait, next⟩ | value⟩
  · exact course.advance call
  · simp only [Stage.poll, Stage.asks]
    split
    · rename_i awake
      have resumed := course.resume awake
      rw [Carried.situation] at resumed
      cases outcome : (wait.resume session world).outcome with
      | answered answer =>
          rw [outcome] at resumed
          exact resumed.advance call
      | waiting wait =>
          rw [outcome] at resumed
          simpa using resumed
    · simpa using course
  · simpa [Stage.asks, Stage.poll] using course

end Situation

/-! ### Machines -/

namespace Machine

section Shows

variable (place call : Nat)

/-- The task at a place and what it works on. -/
structure Shows (machine : Machine ω α) (situation : Situation ω α) : Prop where
  session : (machine.view place).session = some situation.session
  stage : (machine.view place).stages call = some situation.stage
  world : machine.world = situation.world

variable (permits : Signal → Prop)

/-- A course of a machine that polls one task, while its client sends signals of some kinds and time
passes. -/
inductive Solo : Machine ω α → List Request → Machine ω α → Prop
  | start {machine : Machine ω α} : Solo machine [] machine
  | poll {first last : Machine ω α} {trace : List Request} (course : Solo first trace last) :
      Solo first (trace ++ (last.asks call).map Asked.request) (last.poll call)
  | signal {first last : Machine ω α} {trace : List Request} (course : Solo first trace last)
      {signal : Signal} (permitted : permits signal) :
      Solo first trace (last.modifyControl place signal.act)
  | pass {first last next : Machine ω α} {trace : List Request} (course : Solo first trace last)
      (sameRegistry : next.registry = last.registry) (sameView : next.view place = last.view place)
      (passes : last.world.Passes next.world) : Solo first trace next

end Shows

variable {place call : Nat} {permits : Signal → Prop} {first last machine : Machine ω α}
  {trace : List Request} {situation : Situation ω α}

theorem registry_poll (machine : Machine ω α) (call : Nat) :
    (machine.poll call).registry = machine.registry := by
  rw [poll]
  split <;> rfl

theorem Shows.poll (shows : machine.Shows place call situation) :
    (machine.poll call).Shows place call
      (situation.stage.poll machine.registry situation.session situation.world) := by
  have polled := view_poll shows.session shows.stage
  refine ⟨?_, ?_, ?_⟩
  · rw [polled, shows.world]
  · rw [polled, shows.world]
    exact Function.update_self ..
  · rcases view_stages_eq_some.mp shows.stage with ⟨task, hasTask, rfl, sameStage⟩
    simp only [Machine.poll, hasTask, session_eq shows.session, sameStage, shows.world]

theorem Shows.asks_eq (shows : machine.Shows place call situation) :
    machine.asks call =
      situation.stage.asks machine.registry call situation.session situation.world := by
  rw [Machine.asks_eq shows.session shows.stage, shows.world]

theorem Shows.modifyControl (shows : machine.Shows place call situation)
    (change : Control Hook → Control Hook) :
    (machine.modifyControl place change).Shows place call
      { situation with session := situation.session.mapControl change } := by
  rw [Machine.modifyControl]
  refine ⟨?_, ?_, shows.world⟩
  · rw [view_modifySession, shows.session]
    rfl
  · rw [view_modifySession]
    exact shows.stage

theorem Shows.stage_of_value {value : α} (shows : machine.Shows place call situation)
    (hasValue : machine.value? call = some value) : situation.stage = .done value := by
  rcases view_stages_eq_some.mp shows.stage with ⟨task, hasTask, -, sameStage⟩
  rw [value?, hasTask, Option.bind_some, sameStage] at hasValue
  generalize situation.stage = stage at hasValue
  cases stage with
  | done other => exact congrArg Stage.done (Option.some.inj hasValue)
  | ready program => exact nomatch hasValue
  | waiting wait next => exact nomatch hasValue

/-- What a machine does that polls one task is a solo course of the task. -/
theorem Solo.situations (course : Solo place call permits first trace last)
    (shows : first.Shows place call situation) :
    last.registry = first.registry ∧ ∃ reached, last.Shows place call reached ∧
      Situation.Solo first.registry permits situation trace reached := by
  induction course with
  | start => exact ⟨rfl, situation, shows, .start⟩
  | @poll last trace _ ih =>
      rcases ih with ⟨sameRegistry, reached, showsLast, solo⟩
      refine ⟨(registry_poll last call).trans sameRegistry, _, showsLast.poll, ?_⟩
      rw [showsLast.asks_eq, sameRegistry]
      exact solo.poll call
  | signal _ permitted ih =>
      rcases ih with ⟨sameRegistry, reached, showsLast, solo⟩
      exact ⟨sameRegistry, _, showsLast.modifyControl _, solo.signal permitted⟩
  | @pass last next trace _ nextRegistry sameView passes ih =>
      rcases ih with ⟨sameRegistry, reached, showsLast, solo⟩
      refine ⟨nextRegistry.trans sameRegistry, { reached with world := next.world },
        ⟨?_, ?_, rfl⟩, solo.pass (showsLast.world ▸ passes)⟩
      · rw [sameView]
        exact showsLast.session
      · rw [sameView]
        exact showsLast.stage

/-! ### The scheduler -/

theorem poll_of_none (noTask : machine.tasks[call]? = none) : machine.poll call = machine := by
  rw [poll, noTask]

theorem length_tasks_poll (machine : Machine ω α) (call : Nat) :
    (machine.poll call).tasks.length = machine.tasks.length := by
  rw [poll]
  split
  · rfl
  · exact List.length_set

theorem Solo.drain (course : Solo place 0 permits first trace last)
    (single : last.tasks.length = 1) (fuel : Nat) :
    (last.drain fuel).tasks.length = 1 ∧
      ∃ trace, Solo place 0 permits first trace (last.drain fuel) := by
  induction fuel generalizing last trace with
  | zero => exact ⟨single, trace, course⟩
  | succ fuel ih =>
      rw [Machine.drain]
      split
      · exact ⟨single, trace, course⟩
      · rename_i next rest queue
        have dequeued : Solo place 0 permits first trace { last with queue := rest } :=
          course.pass rfl rfl ⟨Nat.le_refl _, rfl⟩
        have polled : ∃ trace, Solo place 0 permits first trace
            (Machine.poll { last with queue := rest } next) := by
          cases next with
          | zero => exact ⟨_, dequeued.poll⟩
          | succ next =>
              have noTask : last.tasks[next + 1]? = none :=
                List.getElem?_eq_none (by rw [single]; exact Nat.le_add_left 1 next)
              have unchanged : Machine.poll { last with queue := rest } (next + 1) =
                  { last with queue := rest } := poll_of_none noTask
              exact ⟨_, unchanged.symm ▸ dequeued⟩
        rcases polled with ⟨trace, polled⟩
        refine ih (polled.pass rfl (view_wake _ place) ⟨Nat.le_refl _, rfl⟩) ?_
        exact (length_tasks_poll _ next).trans single

/-- A machine with a single task that runs to its end polls that task. -/
theorem Solo.runToEnd (course : Solo place 0 permits first trace last)
    (single : last.tasks.length = 1) (fuel : Nat) :
    ∃ trace, Solo place 0 permits first trace (last.runToEnd fuel) := by
  have advances (pollFuel fuel : Nat) (last : Machine ω α) (trace : List Request)
      (course : Solo place 0 permits first trace last) (single : last.tasks.length = 1) :
      ∃ trace, Solo place 0 permits first trace
        (last.advanceUntil pollFuel isDone none fuel) := by
    induction fuel generalizing last trace with
    | zero => exact ⟨trace, course⟩
    | succ fuel ih =>
        rw [advanceUntil]
        split
        · exact ⟨trace, course⟩
        · split
          · exact ⟨trace, course⟩
          · rename_i due _
            have rung : Solo place 0 permits first trace (last.ring (max due last.world.clock)) :=
              course.pass rfl (view_ring last _ place) ⟨Nat.le_max_right .., rfl⟩
            rcases rung.drain single pollFuel with ⟨stillSingle, trace, drained⟩
            exact ih _ _ drained stillSingle
  have woken : Solo place 0 permits first trace last.wake :=
    course.pass rfl (view_wake last place) ⟨Nat.le_refl _, rfl⟩
  rcases woken.drain single fuel with ⟨stillSingle, trace, settled⟩
  exact advances fuel fuel _ trace settled stillSingle

end Machine

end TestEngine
