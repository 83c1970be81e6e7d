import Mathlib.Logic.Relation
import TestEngine.Proofs.Machine.Trace
import TestEngine.Proofs.Pause.Core
import TestEngine.Proofs.Session.Onward

/-!
# Tasks that share a control

Any number of tasks may be at the checkpoints, pauses and sleeps of one control while others call it
from outside. Whatever they do, and in whatever order, the status of the control goes along one
graph, and what it tells of its start, its stop and its interruption stays true.

A task looks at the control and writes to it in several steps, and between them the control may be
paused again or stopped. So that nothing depends on how these steps are put together, each of them
may here also come alone and at any time, from a view of the control that is out of date.
-/

namespace TestEngine

open Calendar

variable {ω α : Type}

/-! ### What tasks make of a control -/

/-- The note that a hook makes when it is carried out. -/
def Hook.note? : Hook → Option String
  | cancelRun => none
  | note tag => some tag

namespace Session

/-- The notes that the hooks of a session are still to make. -/
def pending (session : Session) : List String := session.control.hooks.filterMap Hook.note?

/-- What a task may make of a session by going to its control. -/
structure Turned (before after : Session) : Prop where
  status : after.control.status = before.control.status ∨
    before.control.status.isActive ∧ after.control.status.isActive
  startedAt : after.control.startedAt = before.control.startedAt
  stoppedAt : after.control.stoppedAt = before.control.stoppedAt
  interrupted : after.control.interrupted = before.control.interrupted
  /-- Hooks are carried out in the order in which they were registered, and each of them once. -/
  hooks : after.notes ++ after.pending = before.notes ++ before.pending
  unprovoked : before.control.interrupted = false → after.notes = before.notes

namespace Turned

theorem refl (session : Session) : session.Turned session :=
  ⟨.inl rfl, rfl, rfl, rfl, rfl, fun _ => rfl⟩

theorem trans {first middle last : Session} (before : first.Turned middle)
    (after : middle.Turned last) : first.Turned last where
  status := by
    rcases before.status with same | ⟨active, stillActive⟩
    · rw [← same]
      exact after.status
    · rcases after.status with same | ⟨-, activeAfter⟩
      · exact .inr ⟨active, same ▸ stillActive⟩
      · exact .inr ⟨active, activeAfter⟩
  startedAt := after.startedAt.trans before.startedAt
  stoppedAt := after.stoppedAt.trans before.stoppedAt
  interrupted := after.interrupted.trans before.interrupted
  hooks := after.hooks.trans before.hooks
  unprovoked := by
    intro uninterrupted
    have stillUninterrupted := before.interrupted.trans uninterrupted
    exact (after.unprovoked stillUninterrupted).trans (before.unprovoked uninterrupted)

theorem park (session : Session) : session.Turned (session.mapControl Control.park) := by
  simp only [mapControl, Control.park]
  split
  · rename_i running
    exact ⟨.inr ⟨congrArg JobStatus.isActive running, rfl⟩, rfl, rfl, rfl, rfl, fun _ => rfl⟩
  · exact refl session

theorem wake (session : Session) : session.Turned (session.mapControl Control.wake) := by
  simp only [mapControl, Control.wake]
  split
  · rename_i paused
    exact ⟨.inr ⟨congrArg JobStatus.isActive paused, rfl⟩, rfl, rfl, rfl, rfl, fun _ => rfl⟩
  · exact refl session

theorem signal (session : Session) {signal : Signal} (ne : signal ≠ .interrupt) :
    session.Turned (session.mapControl signal.act) := by
  have resumes (session : Session) : session.Turned (session.mapControl Control.resume) := by
    simp only [mapControl, Control.resume]
    split
    · rename_i paused
      exact ⟨.inr ⟨congrArg JobStatus.isActive paused, rfl⟩, rfl, rfl, rfl, rfl, fun _ => rfl⟩
    · exact ⟨.inl rfl, rfl, rfl, rfl, rfl, fun _ => rfl⟩
  cases signal with
  | interrupt => exact absurd rfl ne
  | pause =>
      simp only [mapControl, Signal.act, Control.pause]
      split
      · exact refl session
      · exact ⟨.inl rfl, rfl, rfl, rfl, rfl, fun _ => rfl⟩
  | resume => exact resumes session
  | interact interaction =>
      have delivered : session.Turned (session.mapControl fun control =>
          { control with interaction := some interaction }) :=
        ⟨.inl rfl, rfl, rfl, rfl, rfl, fun _ => rfl⟩
      exact delivered.trans (resumes _)

theorem beginInteraction (session : Session) :
    session.Turned (session.mapControl Control.beginInteraction) :=
  ⟨.inl rfl, rfl, rfl, rfl, rfl, fun _ => rfl⟩

theorem takeInteraction (session : Session) :
    session.Turned (session.mapControl fun control => control.takeInteraction.1) :=
  ⟨.inl rfl, rfl, rfl, rfl, rfl, fun _ => rfl⟩

theorem endWaiting (session : Session) : session.Turned session.endWaiting := by
  rw [Session.endWaiting]
  split
  · exact ⟨.inl rfl, rfl, rfl, rfl, rfl, fun _ => rfl⟩
  · exact refl session

end Turned

theorem notes_foldl_carryOut (hooks : List Hook) (session : Session) :
    (hooks.foldl carryOut session).notes = session.notes ++ hooks.filterMap Hook.note? := by
  induction hooks generalizing session with
  | nil => simp
  | cons hook rest ih =>
      rw [List.foldl_cons, ih]
      cases hook with
      | cancelRun => rfl
      | note tag => simp [carryOut, Hook.note?]

/-- Who notices an interruption carries out all hooks, and nobody else carries out any. -/
theorem Turned.notice (session : Session) : session.Turned session.notice.1 := by
  cases interrupted : session.control.interrupted with
  | false =>
      rw [session.notice_of_not_interrupted interrupted]
      exact refl session
  | true =>
      have noticed : session.control.notice = ({ session.control with hooks := [] },
          session.control.hooks) := if_pos interrupted
      have control := congrArg Prod.fst noticed
      have notes : session.notice.1.notes = session.notes ++ session.pending := by
        rw [Session.notice, notes_foldl_carryOut, noticed]
        rfl
      have nonePending : session.notice.1.pending = [] := by
        rw [Session.pending, control_notice, control]
        rfl
      refine ⟨.inl ?_, ?_, ?_, ?_, ?_, fun uninterrupted => ?_⟩
      · rw [control_notice, control]
      · rw [control_notice, control]
      · rw [control_notice, control]
      · rw [control_notice, control]
      · rw [notes, nonePending, List.append_nil]
      · simp [uninterrupted] at interrupted

theorem Turned.endInteraction (session : Session) :
    session.Turned session.endInteraction.1 := by
  have ended := (notice session).trans (endWaiting _)
  rw [Session.endInteraction]
  split
  · exact ended
  · exact ended.trans (takeInteraction _)

end Session

/-- Whether a request is one that a task makes of nothing but the control it shares. -/
def Request.isOfControl : Request → Bool
  | checkpoint | awaitResume | awaitInteraction | sleep _ => true
  | _ => false

open Session in
theorem Request.carryOut_turned (registry : Registry ω) (session : Session) (world : World ω)
    {request : Request} (ofControl : request.isOfControl) :
    session.Turned (request.carryOut registry session world).session := by
  cases request with
  | checkpoint =>
      rw [carryOut]
      split
      · exact .notice session
      · split
        · exact (Turned.notice session).trans (.park _)
        · exact .notice session
  | sleep duration =>
      rw [carryOut]
      split <;> exact .refl session
  | awaitInteraction =>
      rw [carryOut]
      split
      · exact .endInteraction session
      · have parked := Turned.park session
        split
        · exact (parked.trans (.wake _)).trans (.endInteraction _)
        · exact parked
  | awaitResume =>
      have parked := Turned.park session
      rw [carryOut]
      split
      · exact parked.trans (.wake _)
      · exact parked
  | _ => exact absurd ofControl Bool.false_ne_true

open Session in
theorem Wait.resume_turned (session : Session) (world : World ω) {request : Request}
    (wait : Wait ω request) (ofControl : request.isOfControl) :
    session.Turned (wait.resume session world).session := by
  cases wait with
  | checkpoint => exact (Turned.wake session).trans (.notice _)
  | pause => exact .wake session
  | interaction => exact (Turned.wake session).trans (.endInteraction _)
  | sleep alarm seen => exact .refl session
  | _ => exact absurd ofControl Bool.false_ne_true

/-- A program that goes to its control and does nothing else. -/
def Program.OfControl : Program α → Prop
  | .done _ => True
  | .ask request next => request.isOfControl ∧ ∀ answer, (next answer).OfControl

def Stage.OfControl : Stage ω α → Prop
  | .ready program => program.OfControl
  | @waiting _ _ request _ next => request.isOfControl ∧ ∀ answer, (next answer).OfControl
  | .done _ => True

/-- Polling a task does nothing but what tasks may make of a control. -/
theorem Stage.OfControl.poll {stage : Stage ω α} (ofControl : stage.OfControl)
    (registry : Registry ω) (session : Session) (world : World ω) :
    session.Turned (stage.poll registry session world).session ∧
      (stage.poll registry session world).stage.OfControl := by
  have law : PollLaw registry
      (fun after (stage : Stage ω α) => session.Turned after ∧ stage.OfControl)
      (fun after program => session.Turned after ∧ program.OfControl) fun _ _ => True := by
    refine ⟨id, id, ?_, ?_⟩
    · rintro middle world request next ⟨turned, isOfControl, rest⟩
      have turnedOn := turned.trans (request.carryOut_turned registry middle world isOfControl)
      refine ⟨True.intro, ?_⟩
      rw [Carried.Keeps]
      split
      · exact ⟨turnedOn, rest _⟩
      · exact ⟨turnedOn, isOfControl, rest⟩
    · rintro middle world request wait next ⟨turned, isOfControl, rest⟩
      have turnedOn := turned.trans (wait.resume_turned middle world isOfControl)
      rw [Carried.Keeps]
      split
      · exact ⟨turnedOn, rest _⟩
      · exact ⟨turnedOn, isOfControl, rest⟩
  exact (law.poll 0 stage world ⟨.refl session, ofControl⟩).1

/-- A task of which the program goes to its control and does nothing else. -/
abbrev ControlTask (ω α : Type) := { stage : Stage ω α // stage.OfControl }

def ControlTask.polled (task : ControlTask ω α) (registry : Registry ω) (session : Session)
    (world : World ω) : ControlTask ω α :=
  ⟨(task.val.poll registry session world).stage, (task.property.poll registry session world).2⟩

/-! ### Histories -/

/-- A call of a control from outside. -/
inductive ControlCall where
  | start
  | stop (status : JobStatus)
  | signal (signal : Signal)
  | beginInteraction
  | onAbort (tag : String)
  | tryInterruption

/-- A control can be stopped with a terminal status only. -/
def ControlCall.isProper : ControlCall → Bool
  | stop status => status.isTerminal
  | _ => true

/-- A step of a task's way through a pause, by itself. -/
inductive TaskMove where
  | suspend
  | wakeUp
  | takeInteraction

def TaskMove.act : TaskMove → Control Hook → Control Hook
  | suspend => Control.park
  | wakeUp => Control.wake
  | takeInteraction => fun control => control.takeInteraction.1

/-- Tasks that share the control of a session, and an account of the calls that were accepted. -/
structure Sharing (ω α : Type) where
  session : Session
  tasks : List (ControlTask ω α)
  starts : List Instant
  stops : List (JobStatus × Instant)
  interrupts : Nat
  registered : List String
  /-- The hooks that were pending when a stop was accepted. -/
  discarded : List String

namespace Sharing

/-- A control that nobody has called and that no task shares yet. -/
def fresh : Sharing ω α := ⟨.unattended, [], [], [], 0, [], []⟩

def withControl (sharing : Sharing ω α) (control : Control Hook) : Sharing ω α :=
  { sharing with session := { sharing.session with control } }

def call (sharing : Sharing ω α) (now : Instant) : ControlCall → Sharing ω α
  | .start =>
    match sharing.session.control.start? now with
    | some control => { sharing.withControl control with starts := sharing.starts ++ [now] }
    | none => sharing
  | .stop status =>
    match sharing.session.control.stop? status now with
    | some control =>
      { sharing.withControl control with
        stops := sharing.stops ++ [(status, now)]
        discarded := sharing.discarded ++ sharing.session.pending }
    | none => sharing
  | .signal signal =>
    let accepted := signal = .interrupt && !sharing.session.control.status.isTerminal
    { sharing.withControl (signal.act sharing.session.control) with
      interrupts := if accepted then sharing.interrupts + 1 else sharing.interrupts }
  | .beginInteraction => sharing.withControl sharing.session.control.beginInteraction
  | .onAbort tag =>
    { sharing.withControl (sharing.session.control.onAbort (.note tag)) with
      registered := sharing.registered ++ [tag] }
  | .tryInterruption => { sharing with session := sharing.session.notice.1 }

def move (sharing : Sharing ω α) (move : TaskMove) : Sharing ω α :=
  sharing.withControl (move.act sharing.session.control)

def spawn (sharing : Sharing ω α) (task : ControlTask ω α) : Sharing ω α :=
  { sharing with tasks := sharing.tasks ++ [task] }

/-- Polls the task at a place, in a world of which nothing is known. -/
def poll (sharing : Sharing ω α) (place : Nat) (registry : Registry ω) (world : World ω) :
    Sharing ω α :=
  match sharing.tasks[place]? with
  | none => sharing
  | some task =>
    { sharing with
      session := (task.val.poll registry sharing.session world).session
      tasks := sharing.tasks.set place (task.polled registry sharing.session world) }

/-- What can happen next: a call, a step of some task by itself, a new task, or a poll of one. -/
inductive Step (sharing : Sharing ω α) : Sharing ω α → Prop
  | call (call : ControlCall) (proper : call.isProper) (now : Instant) :
      Step sharing (sharing.call now call)
  | move (move : TaskMove) : Step sharing (sharing.move move)
  | spawn (task : ControlTask ω α) : Step sharing (sharing.spawn task)
  | poll (place : Nat) (registry : Registry ω) (world : World ω) :
      Step sharing (sharing.poll place registry world)

abbrev History : Sharing ω α → Sharing ω α → Prop := Relation.ReflTransGen Step

/-! ### Single steps -/

/-- What a step leaves as it is while it neither starts nor stops the control. -/
structure GoesOn (before after : Sharing ω α) : Prop where
  status : after.session.control.status = before.session.control.status ∨
    before.session.control.status.isActive ∧ after.session.control.status.isActive
  startedAt : after.session.control.startedAt = before.session.control.startedAt
  stoppedAt : after.session.control.stoppedAt = before.session.control.stoppedAt
  starts : after.starts = before.starts
  stops : after.stops = before.stops
  discarded : after.discarded = before.discarded
  /-- An interruption is accepted from a control that has not been stopped, and never withdrawn. -/
  interrupted :
    after.session.control.interrupted = before.session.control.interrupted ∧
        after.interrupts = before.interrupts ∨
      ¬before.session.control.status.isTerminal ∧ after.session.control.interrupted = true ∧
        after.interrupts = before.interrupts + 1
  hooks : ∃ added, after.registered = before.registered ++ added ∧
    after.session.notes ++ after.session.pending =
      before.session.notes ++ before.session.pending ++ added
  unprovoked : before.session.control.interrupted = false →
    after.session.notes = before.session.notes

/-- Everything that a single step can do. -/
inductive Moves (before after : Sharing ω α) : Prop
  | goesOn (goesOn : before.GoesOn after)
  | begins (now : Instant) (wasInitialized : before.session.control.status = .initialized)
      (begun : after =
        { before.withControl
            { before.session.control with status := .running, startedAt := some now } with
          starts := before.starts ++ [now] })
  | ends (status : JobStatus) (now : Instant)
      (wasOngoing : ¬before.session.control.status.isTerminal) (isTerminal : status.isTerminal)
      (ended : after =
        { before.withControl
            { before.session.control.writePaused false with
              status, stoppedAt := some now, hooks := [] } with
          stops := before.stops ++ [(status, now)]
          discarded := before.discarded ++ before.session.pending })

section Step

variable (sharing : Sharing ω α)

theorem goesOn_of_turned {session : Session} (turned : sharing.session.Turned session)
    (tasks : List (ControlTask ω α)) : sharing.GoesOn { sharing with session, tasks } where
  status := turned.status
  startedAt := turned.startedAt
  stoppedAt := turned.stoppedAt
  starts := rfl
  stops := rfl
  discarded := rfl
  interrupted := .inl ⟨turned.interrupted, rfl⟩
  hooks := ⟨[], by simp, by simpa using turned.hooks⟩
  unprovoked := turned.unprovoked

theorem moves_start (now : Instant) : sharing.Moves (sharing.call now .start) := by
  rw [call]
  cases starts : sharing.session.control.start? now with
  | none => exact .goesOn (sharing.goesOn_of_turned (.refl _) sharing.tasks)
  | some control =>
      rw [Control.start?] at starts
      split at starts
      · rename_i initialized
        obtain rfl := Option.some.inj starts
        exact .begins now initialized rfl
      · simp at starts

theorem moves_stop {status : JobStatus} (isTerminal : status.isTerminal) (now : Instant) :
    sharing.Moves (sharing.call now (.stop status)) := by
  rw [call]
  cases stops : sharing.session.control.stop? status now with
  | none => exact .goesOn (sharing.goesOn_of_turned (.refl _) sharing.tasks)
  | some control =>
      rw [Control.stop?] at stops
      split at stops
      · simp at stops
      · rename_i ongoing
        obtain rfl := Option.some.inj stops
        exact .ends status now ongoing isTerminal rfl

theorem goesOn_interrupt (now : Instant) :
    sharing.GoesOn (sharing.call now (.signal .interrupt)) := by
  rw [call]
  cases terminal : sharing.session.control.status.isTerminal with
  | true =>
      have refused : Signal.interrupt.act sharing.session.control = sharing.session.control :=
        if_pos terminal
      rw [refused]
      exact sharing.goesOn_of_turned (.refl _) sharing.tasks
  | false =>
      have accepted : Signal.interrupt.act sharing.session.control =
          { sharing.session.control with interrupted := true } := if_neg (by simp [terminal])
      rw [accepted]
      have ongoing : ¬sharing.session.control.status.isTerminal := by simp [terminal]
      exact ⟨.inl rfl, rfl, rfl, rfl, rfl, rfl, .inr ⟨ongoing, rfl, rfl⟩,
        ⟨[], (List.append_nil _).symm, (List.append_nil _).symm⟩, fun _ => rfl⟩

theorem goesOn_onAbort (now : Instant) (tag : String) :
    sharing.GoesOn (sharing.call now (.onAbort tag)) where
  status := .inl rfl
  startedAt := rfl
  stoppedAt := rfl
  starts := rfl
  stops := rfl
  discarded := rfl
  interrupted := .inl ⟨rfl, rfl⟩
  hooks := by
    refine ⟨[tag], rfl, ?_⟩
    simp [call, withControl, Session.pending, Control.onAbort, Hook.note?]
  unprovoked _ := rfl

theorem moves_call {call : ControlCall} (proper : call.isProper) (now : Instant) :
    sharing.Moves (sharing.call now call) := by
  cases call with
  | start => exact sharing.moves_start now
  | stop status => exact sharing.moves_stop proper now
  | onAbort tag => exact .goesOn (sharing.goesOn_onAbort now tag)
  | beginInteraction =>
      exact .goesOn (sharing.goesOn_of_turned (.beginInteraction _) sharing.tasks)
  | tryInterruption => exact .goesOn (sharing.goesOn_of_turned (.notice _) sharing.tasks)
  | signal signal =>
      by_cases interrupts : signal = .interrupt
      · subst interrupts
        exact .goesOn (sharing.goesOn_interrupt now)
      · have turned := sharing.goesOn_of_turned (.signal _ interrupts) sharing.tasks
        simp only [Sharing.call, interrupts]
        exact .goesOn turned

theorem goesOn_move (move : TaskMove) : sharing.GoesOn (sharing.move move) := by
  cases move with
  | suspend => exact sharing.goesOn_of_turned (.park _) sharing.tasks
  | wakeUp => exact sharing.goesOn_of_turned (.wake _) sharing.tasks
  | takeInteraction => exact sharing.goesOn_of_turned (.takeInteraction _) sharing.tasks

theorem goesOn_poll (place : Nat) (registry : Registry ω) (world : World ω) :
    sharing.GoesOn (sharing.poll place registry world) := by
  rw [poll]
  split
  · exact sharing.goesOn_of_turned (.refl _) sharing.tasks
  · rename_i task _
    exact sharing.goesOn_of_turned (task.property.poll registry _ world).1 _

end Step

theorem Step.moves {before after : Sharing ω α} (step : before.Step after) :
    before.Moves after := by
  cases step with
  | call call proper now => exact before.moves_call proper now
  | move move => exact .goesOn (before.goesOn_move move)
  | spawn task => exact .goesOn (before.goesOn_of_turned (.refl _) _)
  | poll place registry world => exact .goesOn (before.goesOn_poll place registry world)

/-! ### Whole histories -/

/-- The account of a control agrees with what the control tells of itself. -/
structure Accounted (sharing : Sharing ω α) : Prop where
  initialized : sharing.session.control.status = .initialized → sharing.starts = []
  starts : sharing.starts.length ≤ 1
  ongoing : ¬sharing.session.control.status.isTerminal → sharing.stops = []
  terminal : sharing.session.control.status.isTerminal →
    ∃ now, sharing.stops = [(sharing.session.control.status, now)]
  startedAt : sharing.session.control.startedAt = sharing.starts.head?
  stoppedAt : sharing.session.control.stoppedAt = sharing.stops.head?.map Prod.snd
  interrupted : sharing.session.control.interrupted = true ↔ 0 < sharing.interrupts
  /-- Each registered hook has been carried out, has been discarded or is pending. -/
  hooks : (sharing.session.notes ++ sharing.session.pending ++ sharing.discarded).Perm
    sharing.registered
  unprovoked : sharing.session.control.interrupted = false → sharing.session.notes = []

theorem accounted_fresh : (fresh : Sharing ω α).Accounted where
  initialized _ := rfl
  starts := Nat.zero_le 1
  ongoing _ := rfl
  terminal isTerminal := nomatch isTerminal
  startedAt := rfl
  stoppedAt := rfl
  interrupted := by simp [fresh, Session.unattended, Session.ofResult, Control.initial]
  hooks := .refl _
  unprovoked _ := rfl

namespace Accounted

variable {before after : Sharing ω α}

theorem goesOn (accounted : before.Accounted) (goesOn : before.GoesOn after) : after.Accounted where
  initialized := by
    intro initialized
    rw [goesOn.starts]
    rcases goesOn.status with same | ⟨-, isActive⟩
    · exact accounted.initialized (same ▸ initialized)
    · simp [initialized, JobStatus.isActive] at isActive
  starts := by
    rw [goesOn.starts]
    exact accounted.starts
  ongoing := by
    intro ongoing
    rw [goesOn.stops]
    rcases goesOn.status with same | ⟨wasActive, -⟩
    · exact accounted.ongoing (same ▸ ongoing)
    · exact accounted.ongoing (JobStatus.not_isTerminal_of_isActive wasActive)
  terminal := by
    intro isTerminal
    rw [goesOn.stops]
    rcases goesOn.status with same | ⟨-, isActive⟩
    · rw [same]
      exact accounted.terminal (same ▸ isTerminal)
    · exact absurd isTerminal (JobStatus.not_isTerminal_of_isActive isActive)
  startedAt := by rw [goesOn.startedAt, goesOn.starts, accounted.startedAt]
  stoppedAt := by rw [goesOn.stoppedAt, goesOn.stops, accounted.stoppedAt]
  interrupted := by
    rcases goesOn.interrupted with ⟨same, sameCount⟩ | ⟨-, isInterrupted, counted⟩
    · rw [same, sameCount]
      exact accounted.interrupted
    · simp [isInterrupted, counted]
  hooks := by
    rcases goesOn.hooks with ⟨added, registered, hooks⟩
    rw [registered, hooks, goesOn.discarded, List.append_assoc _ added]
    refine (List.perm_append_comm.append_left _).trans ?_
    rw [← List.append_assoc]
    exact accounted.hooks.append_right added
  unprovoked := by
    intro uninterrupted
    have wasUninterrupted : before.session.control.interrupted = false := by
      rcases goesOn.interrupted with ⟨same, -⟩ | ⟨-, isInterrupted, -⟩
      · exact same ▸ uninterrupted
      · simp [isInterrupted] at uninterrupted
    exact (goesOn.unprovoked wasUninterrupted).trans (accounted.unprovoked wasUninterrupted)

theorem moves (accounted : before.Accounted) (moves : before.Moves after) : after.Accounted := by
  cases moves with
  | goesOn goesOn => exact accounted.goesOn goesOn
  | begins now wasInitialized begun =>
      have noStart := accounted.initialized wasInitialized
      have noStop := accounted.ongoing (by simp [wasInitialized, JobStatus.isTerminal])
      subst begun
      refine ⟨?_, ?_, fun _ => noStop, ?_, ?_, accounted.stoppedAt, accounted.interrupted,
        accounted.hooks, accounted.unprovoked⟩
      · simp [withControl]
      · simp [noStart]
      · simp [withControl, JobStatus.isTerminal]
      · simp [noStart, withControl]
  | ends status now wasOngoing isTerminal ended =>
      have noStop := accounted.ongoing wasOngoing
      subst ended
      refine ⟨?_, accounted.starts, fun ongoing => absurd isTerminal ongoing, ?_,
        accounted.startedAt, ?_, accounted.interrupted, ?_, accounted.unprovoked⟩
      · rintro rfl
        exact absurd isTerminal Bool.false_ne_true
      · intro _
        exact ⟨now, by simp [noStop, withControl]⟩
      · simp [noStop, withControl]
      · -- What was pending is pending no more, and discarded instead.
        have reordered :
            (before.session.notes ++ [] ++ (before.discarded ++ before.session.pending)).Perm
              (before.session.notes ++ before.session.pending ++ before.discarded) := by
          rw [List.append_nil, List.append_assoc]
          exact List.perm_append_comm.append_left _
        exact reordered.trans accounted.hooks

theorem history (accounted : before.Accounted) (history : before.History after) :
    after.Accounted := by
  induction history with
  | refl => exact accounted
  | tail _ step ih => exact ih.moves step.moves

end Accounted

/-- What stays as it is once a control has been stopped, and what stays true before. -/
structure Settled (before after : Sharing ω α) : Prop where
  interrupted : before.session.control.interrupted = true → after.session.control.interrupted = true
  terminal : before.session.control.status.isTerminal →
    after.session.control.status = before.session.control.status ∧
      after.session.control.startedAt = before.session.control.startedAt ∧
      after.session.control.stoppedAt = before.session.control.stoppedAt ∧
      after.session.control.interrupted = before.session.control.interrupted

theorem Moves.settled {before after : Sharing ω α} (moves : before.Moves after) :
    before.Settled after := by
  cases moves with
  | goesOn goesOn =>
      constructor
      · intro wasInterrupted
        rcases goesOn.interrupted with ⟨same, -⟩ | ⟨-, isInterrupted, -⟩
        · exact same.trans wasInterrupted
        · exact isInterrupted
      · intro isTerminal
        have inactive : ¬before.session.control.status.isActive := fun isActive =>
          JobStatus.not_isTerminal_of_isActive isActive isTerminal
        have status := goesOn.status.resolve_right fun active => inactive active.1
        have interrupted := goesOn.interrupted.resolve_right fun accepted => accepted.1 isTerminal
        exact ⟨status, goesOn.startedAt, goesOn.stoppedAt, interrupted.1⟩
  | begins now wasInitialized begun =>
      subst begun
      refine ⟨id, fun isTerminal => ?_⟩
      simp [wasInitialized, JobStatus.isTerminal] at isTerminal
  | ends status now wasOngoing isTerminal ended =>
      subst ended
      exact ⟨id, fun wasTerminal => absurd wasTerminal wasOngoing⟩

theorem Settled.trans {first middle last : Sharing ω α} (before : first.Settled middle)
    (after : middle.Settled last) : first.Settled last where
  interrupted := after.interrupted ∘ before.interrupted
  terminal := by
    intro isTerminal
    rcases before.terminal isTerminal with ⟨status, startedAt, stoppedAt, interrupted⟩
    rcases after.terminal (status ▸ isTerminal) with
      ⟨statusAfter, startedAfter, stoppedAfter, interruptedAfter⟩
    exact ⟨statusAfter.trans status, startedAfter.trans startedAt, stoppedAfter.trans stoppedAt,
      interruptedAfter.trans interrupted⟩

theorem History.settled {before after : Sharing ω α} (history : before.History after) :
    before.Settled after := by
  induction history with
  | refl => exact ⟨id, fun _ => ⟨rfl, rfl, rfl, rfl⟩⟩
  | tail _ step ih => exact ih.trans step.moves.settled

/-- What holds of a shared control at a moment of its history, and from there to a later one. -/
structure Governed (middle last : Sharing ω α) : Prop where
  /-- Whatever happens next, the status goes along the graph. -/
  moves : ∀ next, last.Step next → last.Moves next
  settled : middle.Settled last
  starts : last.starts.length ≤ 1
  stops : last.stops.length ≤ 1
  startedAt : last.session.control.startedAt = last.starts.head?
  stoppedAt : last.session.control.stoppedAt = last.stops.head?.map Prod.snd
  isOver : last.session.control.stoppedAt.isSome = last.session.control.status.isTerminal
  interrupted : last.session.control.interrupted = true ↔ 0 < last.interrupts
  unprovoked : last.interrupts = 0 → last.session.notes = []
  /-- Each registered hook has been carried out, has been discarded or is pending. -/
  hooks : (last.session.notes ++ last.session.pending ++ last.discarded).Perm last.registered
  once : last.registered.Nodup → last.session.notes.Nodup
  never : last.registered.Nodup → ∀ tag ∈ last.discarded, tag ∉ last.session.notes

theorem Accounted.stops {sharing : Sharing ω α} (accounted : sharing.Accounted) :
    sharing.stops.length ≤ 1 ∧
      sharing.session.control.stoppedAt.isSome = sharing.session.control.status.isTerminal := by
  rw [accounted.stoppedAt]
  cases status : sharing.session.control.status.isTerminal with
  | false =>
      have noStop := accounted.ongoing (by simp [status])
      simp [noStop]
  | true =>
      rcases accounted.terminal status with ⟨now, oneStop⟩
      simp [oneStop]

/-- A shared control keeps to its graph, its times and its hooks, whatever is called and whichever
of its tasks goes on at what moment. -/
theorem History.governed {middle last : Sharing ω α} (before : fresh.History middle)
    (after : middle.History last) : middle.Governed last := by
  have accounted := accounted_fresh.history (before.trans after)
  have distinct : last.registered.Nodup →
      (last.session.notes ++ last.session.pending ++ last.discarded).Nodup :=
    accounted.hooks.nodup_iff.mpr
  exact {
    moves := fun _ step => step.moves
    settled := after.settled
    starts := accounted.starts
    stops := accounted.stops.1
    startedAt := accounted.startedAt
    stoppedAt := accounted.stoppedAt
    isOver := accounted.stops.2
    interrupted := accounted.interrupted
    unprovoked := by
      intro noInterrupt
      apply accounted.unprovoked
      rw [Bool.eq_false_iff, ne_eq, accounted.interrupted]
      omega
    hooks := accounted.hooks
    once := by
      intro registered
      exact (List.nodup_append.mp (List.nodup_append.mp (distinct registered)).1).1
    never := by
      intro registered tag discarded ran
      have apart := (List.nodup_append.mp (distinct registered)).2.2
      exact apart tag (List.mem_append_left _ ran) tag discarded rfl }

/-- A control that was started and paused, with a hook and with a task parked at a checkpoint. -/
def parked (now : Instant) (world : World ω) : Sharing ω Bool :=
  ((((fresh.call now .start).call now (.onAbort "clean up")).call now (.signal .pause)).spawn
    ⟨.ready (Program.request .checkpoint), rfl, fun _ => trivial⟩).poll 0 .empty world

/-- The task notices the interruption, and then the control is stopped. -/
def stopped (now : Instant) (world : World ω) : Sharing ω Bool :=
  (((parked now world).call now (.signal .interrupt)).poll 0 .empty world).call now
    (.stop .interrupted)

theorem history_parked (now : Instant) (world : World ω) :
    fresh.History (parked now world) :=
  .tail (.tail (.tail (.tail (.tail .refl (.call .start rfl now))
    (.call (.onAbort "clean up") rfl now)) (.call (.signal .pause) rfl now)) (.spawn _))
    (.poll 0 .empty world)

theorem history_stopped (now : Instant) (world : World ω) :
    (parked now world).History (stopped now world) :=
  .tail (.tail (.tail .refl (.call (.signal .interrupt) rfl now)) (.poll 0 .empty world))
    (.call (.stop .interrupted) rfl now)

theorem stopped_governed :
    let now := Instant.ofEpochMillis 0
    let world := World.initial 0 .empty ()
    (parked now world).session.control.status = .paused ∧
      (stopped now world).session.control.status = .interrupted ∧
      (stopped now world).session.notes = ["clean up"] ∧
      (parked now world).Governed (stopped now world) :=
  ⟨by decide +kernel, by decide +kernel, by decide +kernel,
    (history_parked _ _).governed (history_stopped _ _)⟩

end Sharing

end TestEngine
