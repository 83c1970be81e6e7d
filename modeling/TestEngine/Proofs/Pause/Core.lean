import TestEngine.Machine.Wait
import TestEngine.Proofs.Pause.Untimed

/-!
# What pauses leave alone

The core of a session is what is left of it without its times and without the traces of pauses: the
pause flag and the count of its writes, the difference between running and paused, and what a client
has delivered. The core of a world is what is left of it without the clock and its alarms. Pauses
and the passing of time keep the cores, and whatever else a run does to its session and the world,
the cores that come out depend on the cores that went in and on nothing else.
-/

namespace TestEngine

open Calendar

/-! ### Cores -/

def JobStatus.core : JobStatus → JobStatus
  | paused => running
  | status => status

def Control.core {η : Type} (control : Control η) : Control η :=
  { control with
    status := control.status.core
    paused := false
    writes := 0
    startedAt := none
    stoppedAt := none
    interaction := none }

def Notice.untimed (notice : Notice) : Notice := { notice with result := notice.result.untimed }

def Session.core (session : Session) : Session :=
  { session with
    control := session.control.core
    result := session.result.untimed
    notices := session.notices.map Notice.untimed }

def World.core {ω : Type} (world : World ω) : World ω :=
  { world with clock := 0, handed := [], nextAlarm := 0 }

@[simp]
theorem JobStatus.isTerminal_core (status : JobStatus) :
    status.core.isTerminal = status.isTerminal := by
  cases status <;> rfl

@[simp]
theorem JobStatus.core_eq_initialized (status : JobStatus) :
    status.core = .initialized ↔ status = .initialized := by
  cases status <;> simp [core]

/-! ### Controls -/

namespace Control

variable {η : Type} (control : Control η)

@[simp]
theorem interrupted_core : control.core.interrupted = control.interrupted := rfl

@[simp]
theorem isTerminal_status_core : control.core.status.isTerminal = control.status.isTerminal :=
  control.status.isTerminal_core

@[simp]
theorem core_pause : control.pause.core = control.core := by
  rw [pause]
  split <;> rfl

theorem core_of_running {control : Control η} (isPaused : control.status = .paused) :
    ({ control with status := .running } : Control η).core = control.core := by
  simp [core, isPaused, JobStatus.core]

@[simp]
theorem core_wake : control.wake.core = control.core := by
  rw [wake]
  split
  · rename_i isPaused
    exact core_of_running isPaused
  · rfl

@[simp]
theorem core_park : control.park.core = control.core := by
  rw [park]
  split
  · simp [core, JobStatus.core, *]
  · rfl

@[simp]
theorem core_resume : control.resume.core = control.core := by
  simp only [resume]
  split
  · rename_i isPaused
    exact core_of_running isPaused
  · rfl

@[simp]
theorem core_interact (interaction : Interaction) :
    (control.interact interaction).core = control.core := by
  rw [interact, core_resume]
  rfl

theorem core_interrupt : control.interrupt.core = control.core.interrupt := by
  rw [interrupt, interrupt, isTerminal_status_core]
  split <;> rfl

theorem core_notice : control.notice.1.core = control.core.notice.1 := by
  rw [notice, notice, interrupted_core]
  split <;> rfl

theorem hooks_core_notice : control.core.notice.2 = control.notice.2 := by
  rw [notice, notice, interrupted_core]
  split <;> rfl

@[simp]
theorem paused_notice : control.notice.1.paused = control.paused := by
  rw [notice]
  split <;> rfl

@[simp]
theorem status_notice : control.notice.1.status = control.status := by
  rw [notice]
  split <;> rfl

theorem core_stop (status : JobStatus) (now : Instant) :
    ((control.stop? status now).getD control).core =
      if control.core.status.isTerminal then control.core
      else { control.core with status := status.core, hooks := [] } := by
  rw [stop?, isTerminal_status_core]
  split <;> rfl

end Control

/-! ### Sessions -/

namespace Session

theorem core_eq_iff {session other : Session} :
    session.core = other.core ↔
      session.attended = other.attended ∧ session.control.core = other.control.core ∧
        session.result.untimed = other.result.untimed ∧ session.cursor = other.cursor ∧
        session.finalized = other.finalized ∧ session.listeners = other.listeners ∧
        session.notices.map Notice.untimed = other.notices.map Notice.untimed ∧
        session.notes = other.notes := by
  simp [core]

variable (session : Session)

@[simp]
theorem interrupted_core : session.core.control.interrupted = session.control.interrupted := rfl

@[simp]
theorem abandons_core : session.core.abandons = session.abandons := rfl

theorem core_mapControl {change : Control Hook → Control Hook}
    (keeps : (change session.control).core = session.control.core) :
    (session.mapControl change).core = session.core := by
  rw [core, mapControl, keeps]
  rfl

@[simp]
theorem core_wake : (session.mapControl Control.wake).core = session.core :=
  core_mapControl session (Control.core_wake _)

@[simp]
theorem core_park : (session.mapControl Control.park).core = session.core :=
  core_mapControl session (Control.core_park _)

/-- Of all signals only an interruption reaches the core. -/
theorem core_signal (signal : Signal) :
    (session.mapControl signal.act).core =
      if signal = .interrupt then session.core.mapControl Control.interrupt else session.core := by
  cases signal with
  | pause => exact core_mapControl session (Control.core_pause _)
  | resume => exact core_mapControl session (Control.core_resume _)
  | interact interaction => exact core_mapControl session (Control.core_interact _ _)
  | interrupt =>
      rw [if_pos rfl, core, mapControl]
      exact congrArg (fun control => { session.core with control }) (Control.core_interrupt _)

theorem core_receive (signal : Signal) :
    (session.receive signal).core =
      if session.core.attended && signal = .interrupt then
        session.core.mapControl Control.interrupt
      else session.core := by
  have sameAttended : session.core.attended = session.attended := rfl
  rw [receive, sameAttended]
  cases session.attended
  · rfl
  · simp [core_signal]

theorem core_carryOut (hook : Hook) :
    (session.carryOut hook).core = session.core.carryOut hook := by
  cases hook <;> rfl

theorem core_foldl_carryOut (hooks : List Hook) :
    (hooks.foldl carryOut session).core = hooks.foldl carryOut session.core := by
  induction hooks generalizing session with
  | nil => rfl
  | cons hook rest ih => rw [List.foldl_cons, ih, core_carryOut, List.foldl_cons]

theorem control_notice : session.notice.1.control = session.control.notice.1 := by
  have carriesOut (hooks : List Hook) (session : Session) :
      (hooks.foldl carryOut session).control = session.control := by
    induction hooks generalizing session with
    | nil => rfl
    | cons hook rest ih =>
        rw [List.foldl_cons, ih]
        cases hook <;> rfl
  simp only [notice, carriesOut]

theorem core_notice : session.notice.1.core = session.core.notice.1 := by
  simp only [notice, core_foldl_carryOut]
  have sameControl := session.control.core_notice
  have sameHooks := session.control.hooks_core_notice
  simp only [core, sameControl, sameHooks]

@[simp]
theorem interrupted_notice : session.notice.2 = session.control.interrupted := rfl

/-! ### The end of a job -/

theorem untimed_finalResult (status : JobStatus) (now : Instant) :
    (session.finalResult status now).untimed =
      let result := session.core.result
      let runStatus :=
        if status = .finished && result.runStatus ≠ .cancelled then .finished else .cancelled
      let verdict :=
        if status = .interrupted && result.verdict.isNone then some .failed else result.verdict
      ConfigurationResult.rollUp
        { result with
          runStatus, verdict
          stop := some default
          duration := result.start.map fun _ => default } := by
  rw [finalResult, ConfigurationResult.untimed_finish]
  rfl

variable {session} {other : Session}

theorem interrupted_congr (same : session.core = other.core) :
    session.control.interrupted = other.control.interrupted := by
  rw [← interrupted_core, same, interrupted_core]

theorem abandons_congr (same : session.core = other.core) :
    session.abandons = other.abandons := by
  rw [← abandons_core, same, abandons_core]

theorem receive_congr (same : session.core = other.core) (signal : Signal) :
    (session.receive signal).core = (other.receive signal).core := by
  rw [core_receive, same, ← core_receive]

theorem notice_congr (same : session.core = other.core) :
    session.notice.1.core = other.notice.1.core := by
  rw [core_notice, same, ← core_notice]

theorem publish_congr (same : session.core = other.core) {results others : List ElementResult}
    (sameResults : results.map ElementResult.untimed = others.map ElementResult.untimed) :
    ({ session with result := { session.result with results } } : Session).core =
      ({ other with result := { other.result with results := others } } : Session).core := by
  have publishes (session : Session) (results : List ElementResult) :
      ({ session with result := { session.result with results } } : Session).core =
        { session.core with
          result := { session.core.result with results := results.map ElementResult.untimed } } :=
    rfl
  rw [publishes session, publishes other, same, sameResults]

theorem noteStart_congr (same : session.core = other.core) (now later : Instant) :
    ({ session with
        result := { session.result with start := session.result.start <|> some now } } :
      Session).core =
      ({ other with
          result := { other.result with start := other.result.start <|> some later } } :
        Session).core := by
  have notes (session : Session) (now : Instant) :
      ({ session with
          result := { session.result with start := session.result.start <|> some now } } :
        Session).core =
        { session.core with
          result := { session.core.result with
            start := session.core.result.start <|> some default } } := by
    rw [core]
    rcases session with ⟨_, _, ⟨_, _, _, _, _ | start, _, _, _⟩, _, _, _, _, _⟩ <;> rfl
  rw [notes session, notes other, same]

theorem statusAfter_congr (same : session.core = other.core) (ending : Ending) :
    (session.statusAfter ending).1.core = (other.statusAfter ending).1.core ∧
      (session.statusAfter ending).2 = (other.statusAfter ending).2 := by
  cases ending with
  | completed =>
      refine ⟨notice_congr same, ?_⟩
      exact congrArg (fun interrupted => if interrupted then JobStatus.interrupted else .finished)
        (interrupted_congr same)
  | interrupted => exact ⟨same, rfl⟩
  | crashed => exact ⟨same, rfl⟩

theorem finalize_congr (same : session.core = other.core) (status : JobStatus)
    (now later : Instant) (cache : TraceCache) :
    (session.finalize status now cache).1.core = (other.finalize status later cache).1.core ∧
      (session.finalize status now cache).2 = (other.finalize status later cache).2 := by
  rcases core_eq_iff.mp same with
    ⟨attended, control, result, cursor, finalized, listeners, notices, notes⟩
  have sameResult :
      (session.finalResult status now).untimed = (other.finalResult status later).untimed := by
    rw [untimed_finalResult, untimed_finalResult, same]
  let attached (session : Session) (moment : Instant) :=
    (session.finalResult status moment).attachTraces cache
  have sameAttached :
      (attached session now).map ConfigurationResult.untimed id =
        (attached other later).map ConfigurationResult.untimed id := by
    rw [← ConfigurationResult.attachTraces_untimed, sameResult,
      ConfigurationResult.attachTraces_untimed]
  rcases Prod.ext_iff.mp sameAttached with ⟨attachedResult, attachedCache⟩
  have sameStopped := (session.control.core_stop status now).trans
    (control ▸ (other.control.core_stop status later).symm)
  rw [finalize, finalize, finalized]
  split
  · exact ⟨same, rfl⟩
  · refine ⟨core_eq_iff.mpr ⟨attended, sameStopped, attachedResult, cursor, rfl, rfl, ?_, notes⟩,
      attachedCache⟩
    simp only [List.map_append, notices, listeners, List.map_map]
    refine congrArg _ (List.map_congr_left fun listener _ => ?_)
    exact congrArg (Notice.mk listener status) attachedResult

end Session

/-! ### Worlds -/

namespace World

variable {ω : Type} (world : World ω)

theorem core_callLock (name : String) :
    (world.callLock name).1.core = (world.core.callLock name).1 := rfl

theorem core_releaseLock (name : String) :
    (world.releaseLock name).core =
      { world.core with locks := world.core.locks.release name } := rfl

theorem core_giveUpLock (name : String) (ticket : Ticket) :
    (world.giveUpLock name ticket).core =
      { world.core with locks := world.core.locks.giveUp name ticket } := by
  simp only [giveUpLock]
  split <;> rfl

variable {world} {other : World ω}

theorem core_eq_iff :
    world.core = other.core ↔
      world.epoch = other.epoch ∧ world.locks = other.locks ∧ world.cache = other.cache ∧
        world.nextTicket = other.nextTicket ∧ world.glances = other.glances ∧
          world.state = other.state := by
  simp [core]

theorem callLock_congr (same : world.core = other.core) (lock : String) :
    (world.callLock lock).1.core = (other.callLock lock).1.core := by
  rw [core_callLock, same, ← core_callLock]

theorem releaseLock_congr (same : world.core = other.core) (lock : String) :
    (world.releaseLock lock).core = (other.releaseLock lock).core := by
  rw [core_releaseLock, same, ← core_releaseLock]

theorem giveUpLock_congr (same : world.core = other.core) (lock : String) (ticket : Ticket) :
    (world.giveUpLock lock ticket).core = (other.giveUpLock lock ticket).core := by
  rw [core_giveUpLock, same, ← core_giveUpLock]

theorem balkAtLock_congr (same : world.core = other.core) (lock : String) :
    (world.balkAtLock lock).core = (other.balkAtLock lock).core := by
  have sameTicket : (world.callLock lock).2 = (other.callLock lock).2 :=
    (core_eq_iff.mp same).2.2.2.1
  rw [balkAtLock, balkAtLock, sameTicket]
  exact giveUpLock_congr (callLock_congr same lock) lock _

theorem heed_congr (same : world.core = other.core) (interrupted : Bool) :
    (world.heed interrupted).1.core = (other.heed interrupted).1.core ∧
      (world.heed interrupted).2 = (other.heed interrupted).2 := by
  have heeds (world : World ω) : (world.heed interrupted).map core id =
      world.core.heed interrupted := rfl
  exact Prod.ext_iff.mp ((heeds world).trans (same ▸ (heeds other).symm))

end World

end TestEngine
