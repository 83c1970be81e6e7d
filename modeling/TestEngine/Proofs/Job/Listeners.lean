import TestEngine.Proofs.Job.Run
import TestEngine.Proofs.Machine.Course

/-!
# Listeners of a job

Two things last in every course: a terminal status, and as long as the status is not terminal, the
listeners of the job. Whoever listens goes on listening until the job is over or somebody takes the
listener away; no poll does that.
-/

namespace TestEngine

variable {ω α : Type}

/-! ### Statuses -/

theorem lasting_courseLaw (isJob : Program α → Prop) (mayReject : Session → Prop)
    {status : JobStatus} (terminal : status.isTerminal) :
    Machine.CourseLaw isJob mayReject
      fun _ session (_ : Nat → Option (Stage ω α)) => session.control.status = status where
  poll kept _ stage _ registry world :=
    ((staysAt_pollLaw registry terminal).poll 0 stage world kept).1
  spawn kept _ _ _ _ := kept
  signal := by
    rintro trace session stages rfl signal
    exact (Session.Onward.mapControl session fun control => .act control signal).staysAt terminal
  listen kept _ := kept
  reject := by
    rintro trace session stages rfl - now
    exact session.reject_staysAt now terminal

/-! ### Polls -/

/-- A session that is over, or that some others listen to. -/
def Session.IsOverOr (listeners : List String) (session : Session) : Prop :=
  session.control.status.isTerminal ∨ session.listeners = listeners

theorem Session.IsOverOr.onward {listeners : List String} {before after : Session}
    (kept : before.IsOverOr listeners) (onward : before.Onward after) :
    after.IsOverOr listeners := by
  rcases kept with terminal | same
  · exact .inl (onward.staysAt terminal ▸ terminal)
  · exact .inr (onward.listeners.trans same)

/-- Whoever brings a job to its end makes its status terminal. -/
theorem Session.IsOverOr.finalize {listeners : List String} {session : Session}
    (kept : session.IsOverOr listeners) {status : JobStatus} (terminal : status.isTerminal)
    (now : Calendar.Instant) (cache : TraceCache) :
    (session.finalize status now cache).1.IsOverOr listeners := by
  rw [Session.finalize]
  split
  · exact kept
  · refine .inl ?_
    change ((session.control.stop? status now).getD session.control).status.isTerminal
    by_cases before : session.control.status.isTerminal
    · simp [Control.stop?, before]
    · simp [Control.stop?, before, terminal]

theorem Request.carryOut_isOverOr (registry : Registry ω) {listeners : List String}
    {session : Session} (kept : session.IsOverOr listeners) (world : World ω) (request : Request) :
    (request.carryOut registry session world).session.IsOverOr listeners := by
  by_cases ordinary : request.isOrdinary
  · have onward := request.carryOut_onward registry session world ordinary
    refine Session.IsOverOr.onward ?_ onward
    cases request <;> exact kept
  · cases request with
    | beginJob =>
        rw [carryOut]
        split
        · rename_i begun begins
          rcases Session.begin?_spec begins with ⟨initialized, sameListeners, -⟩
          rcases kept with terminal | same
          · simp [initialized, JobStatus.isTerminal] at terminal
          · exact .inr (sameListeners.trans same)
        · exact kept
    | endJob ending =>
        rcases session.statusAfter_spec ending with ⟨onward, how⟩
        refine (kept.onward onward).finalize ?_ world.now world.cache
        rcases how with ⟨finished, -, -⟩ | interrupted
        · rw [finished]
          rfl
        · rw [interrupted]
          rfl
    | _ => exact absurd rfl ordinary

/-- Whatever a task does, nobody is taken off the listeners of a job before it is over. -/
theorem listeners_pollLaw (registry : Registry ω) (listeners : List String) :
    PollLaw registry (fun session (_ : Stage ω α) => session.IsOverOr listeners)
      (fun session _ => session.IsOverOr listeners) fun _ _ => True := by
  apply PollLaw.ofSession
  · intro session request kept
    trivial
  · intro session world request kept
    exact request.carryOut_isOverOr registry kept world
  · intro session world request wait kept
    exact kept.onward (wait.resume_onward session world)

/-! ### Courses -/

namespace Machine

variable {place : Nat} {isJob : Program α → Prop} {mayReject : Session → Prop}
  {first last : Machine ω α} {trace : List Asked} {session : Session} {listener : String}

/-- After a step a job is over, or a listener is still there or was just taken away. -/
theorem Step.keeps_listener {machine next : Machine ω α} {asked : List Asked}
    (step : Step place isJob mayReject machine asked next)
    (hasSession : (machine.view place).session = some session)
    (listens : listener ∈ session.listeners) :
    ∃ after, (next.view place).session = some after ∧
      (after.control.status.isTerminal ∨ listener ∈ after.listeners ∨
        next = machine.forget place listener) := by
  cases step with
  | poll hasStage =>
      rw [view_poll hasSession hasStage]
      refine ⟨_, rfl, ?_⟩
      rcases ((listeners_pollLaw machine.registry session.listeners).poll 0 _ machine.world
        (.inr rfl)).1 with terminal | same
      · exact .inl terminal
      · exact .inr (.inl (same ▸ listens))
  | spawn job =>
      rw [view_spawn]
      exact ⟨session, hasSession, .inr (.inl listens)⟩
  | signal signal =>
      rw [modifyControl, view_modifySession, hasSession]
      exact ⟨_, rfl, .inr (.inl listens)⟩
  | listen other =>
      rw [Machine.listen, view_modifySession, hasSession]
      exact ⟨_, rfl, .inr (.inl (List.mem_append_left _ listens))⟩
  | forget other =>
      rw [Machine.forget, view_modifySession, hasSession]
      refine ⟨_, rfl, ?_⟩
      rcases eq_or_ne listener other with rfl | otherNe
      · exact .inr (.inr rfl)
      · exact .inr (.inl ((List.mem_erase_of_ne otherNe).mpr listens))
  | reject hasRejected may now =>
      rw [view_modifySession, hasSession]
      refine ⟨_, rfl, .inr (.inl ?_)⟩
      change listener ∈ (session.reject now).listeners
      rw [Session.reject]
      split <;> exact listens
  | elsewhere same =>
      rw [same]
      exact ⟨session, hasSession, .inr (.inl listens)⟩

def Course.Forgets (place : Nat) (isJob : Program α → Prop) (mayReject : Session → Prop)
    (first last : Machine ω α) (listener : String) : Prop :=
  ∃ before middle after, Course place isJob mayReject first before middle ∧
    Course place isJob mayReject (middle.forget place listener) after last

/-- After a course a job is over or a listener is still there, unless it was taken away. -/
theorem Course.keeps_listener (course : Course place isJob mayReject first trace last)
    (hasSession : (first.view place).session = some session)
    (listens : listener ∈ session.listeners) :
    Course.Forgets place isJob mayReject first last listener ∨
      ∃ after, (last.view place).session = some after ∧
        (after.control.status.isTerminal ∨ listener ∈ after.listeners) := by
  induction course with
  | start => exact .inr ⟨session, hasSession, .inr listens⟩
  | step course step ih =>
      rcases ih with
        ⟨before, forgot, after, earlier, later⟩ | ⟨middle, hasMiddle, terminal | listensOn⟩
      · exact .inl ⟨before, forgot, _, earlier, later.step step⟩
      · rcases (lasting_courseLaw isJob mayReject terminal).run [] (.step .start step) hasMiddle rfl
          with ⟨after, hasAfter, same⟩
        exact .inr ⟨after, hasAfter, .inl (same ▸ terminal)⟩
      · rcases step.keeps_listener hasMiddle listensOn with
          ⟨after, hasAfter, terminal | stillListens | rfl⟩
        · exact .inr ⟨after, hasAfter, .inl terminal⟩
        · exact .inr ⟨after, hasAfter, .inr stillListens⟩
        · exact .inl ⟨_, _, _, course, .start⟩

end Machine

end TestEngine
