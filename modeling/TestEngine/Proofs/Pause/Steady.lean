import TestEngine.Proofs.Pause.Alike

/-!
# Tasks that come to the same however long they take

A task is steady if what it comes to depends on the cores of its session and of the world alone. The
task of a new job is steady as long as the program that the job begins with is like itself, and
polling keeps it so. A steady task may be left alone for any time, and paused and resumed meanwhile.
-/

namespace TestEngine

variable {ω α : Type} {same : α → α → Prop} {session other : Session} {world otherWorld : World ω}

/-- A task that does not depend on when it is polled. One that waits for a lock or a capability has
not been interrupted: it would give up on what it may get yet. -/
inductive Stage.Steady (same : α → α → Prop) (session : Session) : Stage ω α → Prop
  | begins {next : Request.beginJob.Answer → Program α}
      (isNew : session.control.status = .initialized)
      (alike : (next none).Alike same (next none)) :
      Steady same session (.ready (.ask .beginJob next))
  | ready {program : Program α} (alike : program.Alike same program) :
      Steady same session (.ready program)
  | waiting {request : Request} {wait : Wait ω request} {next : request.Answer → Program α}
      (timeless : request.isTimeless)
      (calm : wait.IsCalm session)
      (alike : ∀ answer, (next answer).Alike same (next answer)) :
      Steady same session (.waiting wait next)
  | done {value : α} (sameValue : same value value) : Steady same session (.done value)

theorem Stage.Steady.calm {request : Request} {wait : Wait ω request}
    {next : request.Answer → Program α}
    (steady : (Stage.waiting wait next : Stage ω α).Steady same session) : wait.IsCalm session := by
  cases steady with
  | waiting _ calm => exact calm

theorem Wait.IsCalm.congr {request : Request} {wait : Wait ω request} (calm : wait.IsCalm session)
    (sameSession : session.core = other.core) : wait.IsCalm other := by
  cases wait with
  | line => exact (Session.interrupted_congr sameSession).symm.trans calm
  | performing => exact (Session.abandons_congr sameSession).symm.trans calm
  | executing => exact (Session.abandons_congr sameSession).symm.trans calm
  | _ => trivial

theorem Session.status_congr (sameSession : session.core = other.core)
    (isNew : session.control.status = .initialized) : other.control.status = .initialized := by
  have sameStatus : session.control.status.core = other.control.status.core :=
    congrArg Control.status (Session.core_eq_iff.mp sameSession).2.1
  rw [← JobStatus.core_eq_initialized, ← sameStatus, JobStatus.core_eq_initialized]
  exact isNew

/-- Pauses and the passing of time leave a task steady. -/
theorem Stage.Steady.congr {stage : Stage ω α} (steady : stage.Steady same session)
    (sameSession : session.core = other.core) : stage.Steady same other := by
  cases steady with
  | begins isNew alike => exact .begins (Session.status_congr sameSession isNew) alike
  | ready alike => exact .ready alike
  | waiting timeless calm alike => exact .waiting timeless (calm.congr sameSession) alike
  | done sameValue => exact .done sameValue

/-! ### What a steady task comes to -/

/-- The session of a job that has just been begun. -/
def Session.begun (session : Session) (now : Calendar.Instant) : Session :=
  { session with
    control := { session.control with status := .running, startedAt := some now }.onAbort .cancelRun
    result := { session.result with start := some now, runStatus := .running } }

theorem Session.begin_of_initialized (isNew : session.control.status = .initialized)
    (now : Calendar.Instant) : session.begin? now = some (session.begun now) := by
  rw [begin?, Control.start?, if_pos isNew]
  rfl

theorem Session.begun_congr (sameSession : session.core = other.core)
    (now later : Calendar.Instant) : (session.begun now).core = (other.begun later).core := by
  have begins (session : Session) (now : Calendar.Instant) :
      (session.begun now).core =
        { session.core with
          control := { session.core.control with status := .running }.onAbort .cancelRun
          result := { session.core.result with start := some default, runStatus := .running } } :=
    rfl
  rw [begins session, begins other, sameSession]

theorem Request.carryOut_beginJob (registry : Registry ω) (world : World ω)
    (isNew : session.control.status = .initialized) :
    Request.beginJob.carryOut registry session world =
      ⟨session.begun world.now, world, .answered none⟩ := by
  simp only [carryOut, Session.begin_of_initialized isNew]

/-- What a steady task comes to depends on the cores alone. -/
theorem Stage.Steady.alone_congr {stage : Stage ω α} (steady : stage.Steady same session)
    (registry : Registry ω) (sameSession : session.core = other.core)
    (sameWorld : world.core = otherWorld.core) :
    Option.Rel (RunEnd.Alike same) (stage.alone registry session world)
      (stage.alone registry other otherWorld) := by
  cases steady with
  | done sameValue => exact .some ⟨rfl, sameValue, sameSession, sameWorld⟩
  | ready alike => exact alike.alone registry sameSession sameWorld
  | begins isNew alike =>
      have otherNew := Session.status_congr sameSession isNew
      rw [Stage.alone, Program.alone, Request.carryOut_beginJob registry world isNew,
        Stage.alone, Program.alone, Request.carryOut_beginJob registry otherWorld otherNew]
      exact rel_map (alike.alone registry (Session.begun_congr sameSession _ _) sameWorld)
        fun _ _ alike => alike.behind _
  | waiting timeless _ alike =>
      refine rel_bind (Wait.alone_congr timeless _ sameSession sameWorld) ?_
      intro settled otherSettled sameSettled
      rw [sameSettled.answer]
      exact (alike otherSettled.answer).alone registry sameSettled.session sameSettled.world

/-! ### Steps -/

/-- A task that waits for a capability has not been interrupted. -/
theorem ActivityRun.not_abandoned {request : Request} {run : ActivityRun ω α} {abandoned : Bool}
    {answer : Reply α → request.Answer} {wait : Activity ω α → Option Alarm → Wait ω request}
    {made : Wait ω request}
    (waits : (run.carried abandoned answer wait).outcome = .waiting made) : abandoned = false := by
  rcases run with ⟨session, world, lines, value | _ | ⟨activity, alarm⟩⟩
  · cases waits
  · cases waits
  · cases abandoned with
    | true => cases waits
    | false => rfl

/-- A task that waits for a lock has not been interrupted. -/
theorem Session.not_interrupted_of_tryLock {lock : String} {timeout : Nat}
    {wait : Wait ω (.acquire lock timeout)}
    (waits : (session.tryLock world lock timeout).outcome = .waiting wait) :
    session.control.interrupted = false := by
  simp only [tryLock] at waits
  split at waits
  · cases waits
  · split at waits
    · cases waits
    · split at waits
      · cases waits
      · rename_i notInterrupted
        exact Bool.eq_false_iff.mpr notInterrupted

/-- A request that has to wait is made by a run that is not interrupted. -/
theorem Request.calm_carryOut {registry : Registry ω} {request : Request} {wait : Wait ω request}
    (waits : (request.carryOut registry session world).outcome = .waiting wait) :
    wait.IsCalm (request.carryOut registry session world).session := by
  cases wait with
  | line ticket alarm =>
      simp only [carryOut] at waits ⊢
      split at waits
      · cases waits
      · rename_i notHeeded
        rw [if_neg notHeeded, Session.tryLock_session]
        exact Session.not_interrupted_of_tryLock waits
  | performing activity alarm =>
      simp only [carryOut] at waits ⊢
      split at waits
      · cases waits
      · rename_i notHeeded
        rw [if_neg notHeeded, ActivityRun.session_carried]
        exact ActivityRun.not_abandoned waits
  | executing activity alarm lines =>
      simp only [carryOut] at waits ⊢
      split at waits
      · cases waits
      · rename_i notHeeded
        rw [if_neg notHeeded, ActivityRun.session_carried]
        exact ActivityRun.not_abandoned waits
  | _ => trivial

/-- So does one that goes on with a wait. -/
theorem Wait.calm_resume {request : Request} {wait next : Wait ω request}
    (waits : (wait.resume session world).outcome = .waiting next) :
    next.IsCalm (wait.resume session world).session := by
  cases wait with
  | line ticket alarm =>
      simp only [resume, Session.leaveLine] at waits
      split at waits
      · cases waits
      · split at waits <;> cases waits
  | performing activity alarm =>
      simp only [resume] at waits ⊢
      split at waits
      · cases waits
      · rename_i notHeeded
        rw [if_neg notHeeded, ActivityRun.session_carried]
        cases next
        exact ActivityRun.not_abandoned waits
  | executing activity alarm lines =>
      simp only [resume] at waits ⊢
      split at waits
      · cases waits
      · rename_i notHeeded
        rw [if_neg notHeeded, ActivityRun.session_carried]
        cases next
        exact ActivityRun.not_abandoned waits
  | _ => cases waits

/-- A request leaves its task steady. -/
theorem Stage.Steady.ask {request : Request} {next : request.Answer → Program α}
    (steady : (Stage.ready (.ask request next) : Stage ω α).Steady same session)
    (registry : Registry ω) (world : World ω) :
    let after := (request.carryOut registry session world).situation next
    after.stage.Steady same after.session := by
  cases steady with
  | begins isNew alike =>
      rw [Request.carryOut_beginJob registry world isNew]
      exact .ready alike
  | ready alike =>
      rw [Carried.situation]
      cases outcome : (request.carryOut registry session world).outcome with
      | answered answer => exact .ready (alike.next answer)
      | waiting wait =>
          refine .waiting ?_ (Request.calm_carryOut outcome) alike.next
          rcases alike.timeless with timeless | rfl | ⟨results, rfl⟩
          · exact timeless
          · cases wait
          · cases wait

/-- So does going on after a wait. -/
theorem Stage.Steady.resume {request : Request} {wait : Wait ω request}
    {next : request.Answer → Program α}
    (steady : (Stage.waiting wait next : Stage ω α).Steady same session) (world : World ω) :
    let after := (wait.resume session world).situation next
    after.stage.Steady same after.session := by
  cases steady with
  | waiting timeless _ alike =>
      rw [Carried.situation]
      cases outcome : (wait.resume session world).outcome with
      | answered answer => exact .ready (alike answer)
      | waiting wait => exact .waiting timeless (Wait.calm_resume outcome) alike

theorem Stage.Steady.finish {value : α}
    (steady : (Stage.ready (.done value) : Stage ω α).Steady same session) :
    (Stage.done value : Stage ω α).Steady same session := by
  cases steady with
  | ready alike =>
      cases alike with
      | done sameValue => exact .done sameValue

end TestEngine
