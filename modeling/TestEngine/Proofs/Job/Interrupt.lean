import TestEngine.Proofs.Job.Driver

/-!
# Interruptions of a job

An interruption is never taken back, neither by what clients do afterwards nor by the run, and it is
in everything that the run asks from then on. A run that keeps to its conduct therefore calls no
capability any more. It cannot end its job as finished either, since it looks at its client once
more when its walk is complete.
-/

namespace TestEngine

variable {ω α : Type}

/-! ### Interruptions stay -/

theorem Session.reject_interrupted (session : Session) (now : Calendar.Instant) :
    (session.reject now).control.interrupted = session.control.interrupted := by
  rw [reject]
  split
  · rfl
  · by_cases terminal : session.control.status.isTerminal
    · simp [Control.stop?, setRunStatus, terminal]
    · simp [Control.stop?, Control.writePaused, setRunStatus, terminal]

/-- A task of an interrupted session leaves it interrupted and knows of it whenever it asks. -/
theorem interrupted_pollLaw (registry : Registry ω) :
    PollLaw registry (fun session (_ : Stage ω α) => session.control.interrupted)
      (fun session _ => session.control.interrupted) fun _ interrupted => interrupted := by
  apply PollLaw.ofSession
  · intro session request kept
    exact kept
  · intro session world request kept
    exact request.carryOut_interrupted registry kept world
  · intro session world request wait kept
    exact (wait.resume_onward session world).control.interrupted kept

/-- In every course from an interrupted session on, the interruption is in the whole trace. -/
theorem interrupted_courseLaw (isJob : Program α → Prop) (mayReject : Session → Prop) :
    Machine.CourseLaw isJob mayReject fun trace session (_ : Nat → Option (Stage ω α)) =>
      session.control.interrupted ∧ ∀ made ∈ trace, made.interrupted where
  poll := by
    rintro trace session stages ⟨interrupted, known⟩ call stage - registry world
    have polled := (interrupted_pollLaw registry).poll call stage world interrupted
    exact ⟨polled.1, List.forall_mem_append.mpr ⟨known, polled.2⟩⟩
  spawn kept _ _ _ _ := kept
  signal := by
    rintro trace session stages ⟨interrupted, known⟩ signal
    have onward := Session.Onward.mapControl session fun control => .act control signal
    exact ⟨onward.control.interrupted interrupted, known⟩
  listen kept _ := kept
  reject := by
    rintro trace session stages ⟨interrupted, known⟩ - now
    exact ⟨(session.reject_interrupted now).trans interrupted, known⟩

/-! ### Interruptions in a trace -/

/-- A trace in which no request misses an interruption that an earlier one knew of, before a session
that does not miss it either. -/
structure Heeds (trace : List Asked) (session : Session) : Prop where
  inOrder : trace.Pairwise fun earlier later => earlier.interrupted → later.interrupted
  session : ∀ made ∈ trace, made.interrupted → session.control.interrupted

theorem Program.asks_heeds (registry : Registry ω) (call : Nat) (program : Program α)
    (session : Session) (world : World ω) :
    Heeds (program.asks registry call session world)
      (program.advance registry session world).session := by
  induction program generalizing session world with
  | done value => exact ⟨.nil, by simp [asks]⟩
  | ask request next ih =>
      rw [asks, advance]
      have stays : session.control.interrupted →
          (request.carryOut registry session world).session.control.interrupted := by
        intro interrupted
        exact request.carryOut_interrupted registry interrupted world
      cases outcome : (request.carryOut registry session world).outcome with
      | waiting wait => exact ⟨List.pairwise_singleton .., by simpa using stays⟩
      | answered answer =>
          have goesOn (interrupted : session.control.interrupted) :=
            (interrupted_pollLaw registry).advance call (next answer)
              (request.carryOut registry session world).world (stays interrupted)
          have rest := ih answer (request.carryOut registry session world).session
            (request.carryOut registry session world).world
          refine ⟨.cons ?_ rest.inOrder, List.forall_mem_cons.mpr ⟨?_, rest.session⟩⟩
          · exact fun later laterMem interrupted => (goesOn interrupted).2 later laterMem
          · exact fun interrupted => (goesOn interrupted).1

theorem Stage.asks_heeds (registry : Registry ω) (call : Nat) (stage : Stage ω α)
    (session : Session) (world : World ω) :
    Heeds (stage.asks registry call session world) (stage.poll registry session world).session := by
  cases stage with
  | done value => exact ⟨.nil, by simp [asks]⟩
  | ready program => exact program.asks_heeds registry call session world
  | waiting wait next =>
      simp only [asks, poll]
      split
      · cases (wait.resume session world).outcome with
        | answered answer => exact (next answer).asks_heeds registry call _ _
        | waiting wait => exact ⟨.nil, by simp⟩
      · exact ⟨.nil, by simp⟩

/-- In every course, all requests after one that knew of an interruption know of it. -/
theorem heeds_courseLaw (isJob : Program α → Prop) (mayReject : Session → Prop) :
    Machine.CourseLaw isJob mayReject
      fun trace session (_ : Nat → Option (Stage ω α)) => Heeds trace session where
  poll := by
    intro trace session stages heeds call stage _ registry world
    have polled := stage.asks_heeds registry call session world
    have goesOn (interrupted : session.control.interrupted) :=
      (interrupted_pollLaw registry).poll call stage world interrupted
    refine ⟨List.pairwise_append.mpr ⟨heeds.inOrder, polled.inOrder, ?_⟩,
      List.forall_mem_append.mpr ⟨?_, polled.session⟩⟩
    · exact fun earlier earlierMem later laterMem interrupted =>
        (goesOn (heeds.session earlier earlierMem interrupted)).2 later laterMem
    · exact fun made madeMem interrupted => (goesOn (heeds.session made madeMem interrupted)).1
  spawn kept _ _ _ _ := kept
  signal := by
    intro trace session stages heeds signal
    have onward := Session.Onward.mapControl session fun control => .act control signal
    exact ⟨heeds.inOrder, fun made madeMem interrupted =>
      onward.control.interrupted (heeds.session made madeMem interrupted)⟩
  listen kept _ := ⟨kept.inOrder, kept.session⟩
  reject := by
    intro trace session stages heeds _ now
    exact ⟨heeds.inOrder, fun made madeMem interrupted =>
      (session.reject_interrupted now).trans (heeds.session made madeMem interrupted)⟩

/-! ### Interrupted jobs -/

namespace Machine

variable {setting : Setting} {configuration : Configuration} {context : Context} {place : Nat}
  {first middle next last : Machine ω JobStatus} {before after : List Asked}

/-- How a job comes to be interrupted: its client interrupts it before it has a terminal status, or
a capability has done so. -/
inductive Interruption (place : Nat) (machine : Machine ω α) : Machine ω α → Prop
  | client {session : Session} (hasSession : (machine.view place).session = some session)
      (ongoing : ¬session.control.status.isTerminal) :
      Interruption place machine (machine.modifyControl place Control.interrupt)
  | capability {session : Session} (hasSession : (machine.view place).session = some session)
      (interrupted : session.control.interrupted) : Interruption place machine machine

/-- An interruption leaves the session interrupted, and it is a part of a course. -/
theorem Interruption.course {isJob : Program α → Prop} {mayReject : Session → Prop}
    {machine next : Machine ω α} (interruption : Interruption place machine next) :
    Course place isJob mayReject machine [] next ∧
      ∃ session, (next.view place).session = some session ∧ session.control.interrupted := by
  cases interruption with
  | client hasSession ongoing =>
      refine ⟨.step .start (.signal .interrupt), ?_⟩
      rw [modifyControl, view_modifySession, hasSession]
      refine ⟨_, rfl, ?_⟩
      simp [Session.mapControl, Control.interrupt, ongoing]
  | capability hasSession interrupted => exact ⟨.start, _, hasSession, interrupted⟩

/-- What holds of a job that has been interrupted between two parts of a course. -/
structure Halts (place : Nat) (last : Machine ω JobStatus) (before after : List Asked)
    (session : Session) : Prop where
  /-- No capability is called from the interruption on. -/
  silent : ∀ made ∈ after, ¬made.request.isCall
  /-- None is called either by a request that knows of an interruption or by a later one. -/
  heeded : (before ++ after).Pairwise fun earlier later => earlier.interrupted →
    ¬earlier.request.isCall ∧ ¬later.request.isCall
  /-- The call that executes the job returns that the job was interrupted. -/
  returned {call : Nat} {status : JobStatus} (executes : Executes (before ++ after) call)
    (returned : (last.view place).stages call = some (.done status)) :
    status = .interrupted ∧ session.control.status = .interrupted ∧
      session.result.runStatus = .cancelled ∧ session.result.verdict = some .failed

/-- An interruption is never lost, whatever clients and capabilities do before and afterwards. -/
theorem Course.halts (opens : first.Opens place configuration)
    (earlier : Course place (· = configuration.runJob setting context) Session.IsIdle first before
      middle)
    (interruption : Interruption place middle next)
    (later : Course place (· = configuration.runJob setting context) Session.IsIdle next after
      last) :
    ∃ session, (last.view place).session = some session ∧
      Halts place last before after session := by
  rcases interruption.course with ⟨interrupts, interrupted, hasInterrupted, isInterrupted⟩
  have whole := (earlier.trans interrupts).trans later
  rw [List.append_nil] at whole
  rcases opens.orderly whole with ⟨session, hasSession, owner, state⟩
  rcases (interrupted_courseLaw _ _).run [] later hasInterrupted ⟨isInterrupted, by simp⟩ with
    ⟨atLast, hasLast, stillInterrupted, known⟩
  obtain rfl := Option.some.inj (hasSession.symm.trans hasLast)
  refine ⟨session, hasSession, ?silent, ?heeded, ?returned⟩
  case silent =>
    exact fun made madeMem => state.calm made (List.mem_append_right _ madeMem) (known made madeMem)
  case heeded =>
    rcases opens.session with ⟨listeners, hasOpened⟩
    rcases (heeds_courseLaw _ _).run [] whole hasOpened ⟨.nil, by simp⟩ with ⟨_, -, heeds⟩
    refine List.Pairwise.imp_of_mem ?_ heeds.inOrder
    intro made other madeMem otherMem lasts interrupted
    exact ⟨state.calm made madeMem interrupted, state.calm other otherMem (lasts interrupted)⟩
  case returned =>
    intro call status executes returned
    rcases state.over_of_returned executes returned with ⟨told, isOver⟩ | ⟨never, -⟩
    · rcases isOver.how with ⟨-, notInterrupted⟩ | rfl
      · exact nomatch notInterrupted.symm.trans stillInterrupted
      · exact ⟨rfl, isOver.current, isOver.result.interrupted rfl⟩
    · exact never.elim

/-- The small job is interrupted before anybody runs it. -/
theorem sample_halts :
    ∃ trace session,
      ((((sample.modifyControl 0 Control.interrupt).spawn 0 .sample).poll 0).view 0).session =
        some session ∧
      Halts 0 (((sample.modifyControl 0 Control.interrupt).spawn 0 .sample).poll 0) [] trace
        session := by
  have interruption : Interruption 0 sample (sample.modifyControl 0 Control.interrupt) :=
    .client rfl Bool.false_ne_true
  have later : Course 0 (· = .sample) Session.IsIdle (sample.modifyControl 0 Control.interrupt) _
      (((sample.modifyControl 0 Control.interrupt).spawn 0 .sample).poll 0) :=
    .step (.step .start (.spawn rfl)) (.poll rfl)
  exact ⟨_, Course.halts sample_opens .start interruption later⟩

end Machine

end TestEngine
