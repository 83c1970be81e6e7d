import TestEngine.Proofs.Job.State
import TestEngine.Proofs.Service.Run

/-!
# Admission

A service admits a job when every job before it is over, and then answers for that job alone. What
clients ask of a service and what its machine does in between is a `Service.History`. At each point
of a history the service stands with the last job it has admitted in one of three phases: there is
none, it has not reported its end, or it has and the worker is back. The phases and the earlier
jobs, which are all over, make up the invariant `Service.Stands`, and what clients can see follows
from it.
-/

namespace TestEngine

variable {ω : Type}

/-- Every task of a machine works on a session that has been opened. -/
def Machine.Attached {α : Type} (machine : Machine ω α) : Prop :=
  ∀ task ∈ machine.tasks, task.session < machine.sessions.length

namespace Machine

theorem Attached.poll {α : Type} {machine : Machine ω α} (attached : machine.Attached)
    (call : Nat) : (machine.poll call).Attached := by
  rw [Machine.poll]
  split
  · exact attached
  · rename_i task hasTask
    intro other otherMem
    rw [List.length_set]
    rcases List.mem_or_eq_of_mem_set otherMem with earlier | rfl
    · exact attached other earlier
    · exact attached task (List.mem_of_getElem? hasTask)

theorem Attached.openSession {α : Type} {machine : Machine ω α} (attached : machine.Attached)
    (session : Session) : (machine.openSession session).1.Attached := by
  intro task taskMem
  rw [Machine.openSession, List.length_append]
  exact Nat.lt_add_right _ (attached task taskMem)

theorem Attached.spawn {α : Type} {machine : Machine ω α} (attached : machine.Attached)
    {place : Nat} (inBounds : place < machine.sessions.length) (program : Program α) :
    (machine.spawn place program).Attached := by
  intro task taskMem
  rcases List.mem_append.mp taskMem with earlier | now
  · exact attached task earlier
  · rw [List.mem_singleton.mp now]
    exact inBounds

theorem Works.attached {α : Type} {first last : Machine ω α} (works : first.Works last)
    (attached : first.Attached) : last.Attached := by
  induction works with
  | rest => exact attached
  | poll _ call ih => exact ih.poll call
  | idle _ sameSessions sameTasks ih =>
      rw [Attached, sameSessions, sameTasks]
      exact ih

/-- What opens a session and spawns a task for it leaves all other sessions alone. -/
theorem view_host_of_ne {α : Type} (machine : Machine ω α) (session : Session) (program : Program α)
    {place : Nat} (placeNe : place ≠ machine.sessions.length) :
    ((machine.openSession session).1.spawn machine.sessions.length program).view place =
      machine.view place := by
  simp only [openSession, spawn, view]
  congr 1
  · rcases Nat.lt_or_gt_of_ne placeNe with placeLt | placeGt
    · exact List.getElem?_append_left placeLt
    · rw [List.getElem?_eq_none (Nat.le_of_lt placeGt), List.getElem?_eq_none]
      rw [List.length_append]
      exact placeGt
  · funext call
    rcases Nat.lt_trichotomy call machine.tasks.length with callLt | rfl | callGt
    · rw [List.getElem?_append_left callLt]
    · rw [List.getElem?_concat_length, List.getElem?_eq_none (Nat.le_refl _), Option.filter_some,
        if_neg (by simpa using placeNe.symm)]
      rfl
    · rw [List.getElem?_eq_none (Nat.le_of_lt callGt), List.getElem?_eq_none]
      rw [List.length_append]
      exact callGt

end Machine

theorem Admission.submit_of_free {admission : Admission} (free : admission.busy = false)
    (hasWorker : 0 < admission.permits) (job : Job) :
    admission.submit job =
      (⟨true, admission.permits - 1, ⟨[(job.id, job)]⟩, .empty⟩, .ok ()) := by
  rcases Nat.exists_eq_add_one_of_ne_zero (Nat.ne_of_gt hasWorker) with ⟨permits, hasPermits⟩
  simp [submit, free, hasPermits, NameMap.empty, NameMap.insert, NameMap.replace]

/-- The report of the only job there is, and the return of its worker. -/
theorem Admission.release_report {workers : Nat} (hasWorkers : 0 < workers) (job : Job)
    (result : ConfigurationResult) :
    (Admission.report ⟨true, workers - 1, ⟨[(job.id, job)]⟩, .empty⟩ job.id result).release =
      ⟨false, workers, ⟨[(job.id, job)]⟩, ⟨[(job.id, result)]⟩⟩ := by
  simp [report, release, Nat.sub_add_cancel hasWorkers, NameMap.empty, NameMap.insert,
    NameMap.replace]

namespace Service

/-! ### Histories -/

/-- The job that a submission becomes if it is admitted. -/
def submitted (service : Service ω) (id : String) (configuration : Configuration) : Job :=
  ⟨id, configuration.name, service.machine.sessions.length, service.machine.tasks.length⟩

/-- What clients ask of a service and what its machine does in between, with the jobs that the
service admits. Each submission comes with an id of its own. -/
inductive History : Service ω → List Job → Service ω → Prop
  | rest {service : Service ω} : History service [] service
  | accept {first last after : Service ω} {admitted : List Job}
      (history : History first admitted last)
      {id : String} {configuration : Configuration} {context : Context}
      (isNew : ∀ job ∈ admitted, job.id ≠ id)
      (starts : last.start id configuration context = (after, .ok ())) :
      History first (admitted ++ [last.submitted id configuration]) after
  | refuse {first last after : Service ω} {admitted : List Job}
      (history : History first admitted last) {id : String} {configuration : Configuration}
      {context : Context} {error : EngineError}
      (refuses : last.start id configuration context = (after, .error error)) :
      History first admitted after
  | steer {first last after : Service ω} {admitted : List Job}
      (history : History first admitted last) {id : String} (signal : Signal)
      (steers : last.steer id signal.act = .ok after) : History first admitted after
  | work {first last : Service ω} {admitted : List Job} (history : History first admitted last)
      {machine : Machine ω JobStatus} (works : last.machine.Works machine) :
      History first admitted (last.withMachine machine)

namespace History

variable {first last : Service ω} {admitted : List Job}

theorem settle (history : History first admitted last) (fuel : Nat) :
    History first admitted (last.settle fuel) :=
  history.work (Machine.Works.rest.settle fuel)

theorem advance (history : History first admitted last) (fuel duration : Nat) :
    History first admitted (last.advance fuel duration) :=
  history.work (Machine.Works.rest.advanceUntil ..)

end History

/-! ### Submissions -/

/-- The workers of a service. -/
def workers (service : Service ω) : Nat := service.settings.workerPoolSize.toNat

theorem start_of_busy {service : Service ω} (busy : service.admission.busy) (id : String)
    (configuration : Configuration) (context : Context) :
    service.start id configuration context =
      (service, .error (.rejected "Another execution is active")) := by
  simp [start, Admission.submit, busy]

/-- The machine with the session and the task of a new job. -/
def hosting (service : Service ω) (configuration : Configuration) (context : Context) :
    Machine ω JobStatus :=
  (service.machine.openSession (configuration.jobSession listeners)).1.spawn
    service.machine.sessions.length (configuration.runJob service.setting context)

theorem start_of_free {service : Service ω} (free : service.admission.busy = false)
    (hasWorker : 0 < service.admission.permits) (id : String) (configuration : Configuration)
    (context : Context) :
    service.start id configuration context =
      ({ service with
          admission := ⟨true, service.admission.permits - 1,
            ⟨[(id, service.submitted id configuration)]⟩, .empty⟩
          machine := service.hosting configuration context
          unreported := service.unreported ++ [service.submitted id configuration]
          working := service.working ++ [service.submitted id configuration] }, .ok ()) := by
  have submits := Admission.submit_of_free free hasWorker (service.submitted id configuration)
  simp only [submitted] at submits
  simp only [start, submits]
  rfl

theorem start_machine {service later : Service ω} {id : String} {configuration : Configuration}
    {context : Context} {answer : Except EngineError Unit}
    (starts : service.start id configuration context = (later, answer)) :
    later.machine = service.machine ∨ later.machine = service.hosting configuration context := by
  obtain rfl := congrArg Prod.fst starts
  simp only [start]
  split
  · exact .inl rfl
  · exact .inr rfl

theorem steer_eq_ok {service later : Service ω} {id : String} {change : Control Hook → Control Hook}
    (steers : service.steer id change = .ok later) :
    ∃ job, service.admission.job? id = .ok job ∧
      later = { service with machine := service.machine.modifyControl job.session change } := by
  rw [steer] at steers
  cases found : service.admission.job? id with
  | error error => simp [found, Except.map] at steers
  | ok job =>
      rw [found] at steers
      exact ⟨job, rfl, (Except.ok.inj steers).symm⟩

/-! ### Reports -/

section Reports

variable {service : Service ω} {machine : Machine ω JobStatus} {job : Job}

theorem withMachine_of_nil (unreported : service.unreported = []) (working : service.working = []) :
    service.withMachine machine = { service with machine } := by
  simp [withMachine, collectReports, collectWorkers, unreported, working]

theorem withMachine_of_ongoing (unreported : service.unreported = [job])
    (working : service.working = [job]) (untold : (machine.session job.session).notices = [])
    (notDone : machine.value? job.task = none) :
    service.withMachine machine = { service with machine } := by
  simp [withMachine, collectReports, collectWorkers, unreported, working, untold, notDone]

theorem withMachine_of_ended (unreported : service.unreported = [job])
    (working : service.working = [job]) {notice : Notice}
    (told : (machine.session job.session).notices = [notice])
    (done : (machine.value? job.task).isSome) :
    service.withMachine machine =
      { service with
        machine, unreported := [], working := []
        admission := (service.admission.report job.id notice.result).release } := by
  simp [withMachine, collectReports, collectWorkers, unreported, working, told,
    Option.isSome_iff_ne_none.mp done]

end Reports

/-! ### Phases -/

/-- Where a service stands with the last job it has admitted. -/
inductive Phase (service : Service ω) : Option Job → Prop
  | unused (admission : service.admission = .initial service.workers)
      (unreported : service.unreported = []) (working : service.working = []) : Phase service none
  | occupied {job : Job} {session : Session} {stage : Stage ω JobStatus}
      (on : job.OnMachine service.machine session stage) (ongoing : JobRun.Ongoing session stage)
      (admission : service.admission =
        ⟨true, service.workers - 1, ⟨[(job.id, job)]⟩, .empty⟩)
      (unreported : service.unreported = [job]) (working : service.working = [job]) :
      Phase service (some job)
  | vacant {job : Job} {session : Session} {stage : Stage ω JobStatus}
      (on : job.OnMachine service.machine session stage) (ended : JobRun.Ended session stage)
      (admission : service.admission =
        ⟨false, service.workers, ⟨[(job.id, job)]⟩, ⟨[(job.id, session.result)]⟩⟩)
      (unreported : service.unreported = []) (working : service.working = []) :
      Phase service (some job)

/-- A job that is over with a status and a result. -/
def IsOver (service : Service ω) (job : Job) (status : JobStatus) (result : ConfigurationResult) :
    Prop :=
  ∃ session stage, job.OnMachine service.machine session stage ∧ JobRun.Ended session stage ∧
    session.control.status = status ∧ session.result = result

/-- The invariant of histories: all jobs but the last are over. -/
structure Stands (service : Service ω) (admitted : List Job) : Prop where
  hasWorkers : 0 < service.workers
  attached : service.machine.Attached
  earlier : ∀ job ∈ admitted.dropLast, ∃ status result, service.IsOver job status result
  distinct : (admitted.map Job.id).Nodup
  phase : service.Phase admitted.getLast?

variable {service first last later : Service ω} {admitted : List Job} {job : Job}

section IsOver

variable {status : JobStatus} {result : ConfigurationResult}

theorem IsOver.of_view_eq (isOver : service.IsOver job status result)
    (same : later.machine.view job.session = service.machine.view job.session) :
    later.IsOver job status result := by
  rcases isOver with ⟨session, stage, on, ended, rest⟩
  exact ⟨session, stage, on.of_view_eq same, ended, rest⟩

theorem IsOver.works (isOver : service.IsOver job status result) {machine : Machine ω JobStatus}
    (works : service.machine.Works machine) (same : later.machine = machine) :
    later.IsOver job status result := by
  rcases isOver with ⟨session, stage, on, ended, rest⟩
  rcases on.works works with ⟨session', stage', on', sameSession⟩
  obtain rfl := sameSession ended
  exact ⟨session', stage', same ▸ on', on'.run.ended_iff.mpr ended.isTerminal, rest⟩

theorem IsOver.act (isOver : service.IsOver job status result) (place : Nat) (signal : Signal)
    (same : later.machine = service.machine.modifyControl place signal.act) :
    later.IsOver job status result := by
  rcases isOver with ⟨session, stage, on, ended, sameStatus, sameResult⟩
  rcases on.act place signal with ⟨session', on', result', -, status'⟩
  have statusStays := status' ended.isTerminal
  refine ⟨session', stage, same ▸ on', on'.run.ended_iff.mpr ?_, statusStays.trans sameStatus,
    result'.trans sameResult⟩
  rw [statusStays]
  exact ended.isTerminal

theorem IsOver.start (isOver : service.IsOver job status result) {id : String}
    {configuration : Configuration} {context : Context} {answer : Except EngineError Unit}
    (starts : service.start id configuration context = (later, answer)) :
    later.IsOver job status result := by
  rcases isOver with ⟨session, stage, on, ended⟩
  have inBounds : job.session < service.machine.sessions.length :=
    (List.getElem?_eq_some_iff.mp on.hasSession).1
  refine IsOver.of_view_eq ⟨session, stage, on, ended⟩ ?_
  rcases start_machine starts with same | same
  · rw [same]
  · rw [same]
    exact Machine.view_host_of_ne _ _ _ (Nat.ne_of_lt inBounds)

/-- A job that is over stays as it is, whatever comes after it. -/
theorem IsOver.history (isOver : service.IsOver job status result)
    (history : History service admitted later) : later.IsOver job status result := by
  induction history with
  | rest => exact isOver
  | accept history isNew starts ih => exact ih.start starts
  | refuse history refuses ih => exact ih.start refuses
  | steer history signal steers ih =>
      rcases steer_eq_ok steers with ⟨job, -, rfl⟩
      exact ih.act job.session signal rfl
  | work history works ih => exact ih.works works rfl

end IsOver

namespace Phase

variable {last? : Option Job}

/-- The work of the machine is reported when a job has come to its end, and the worker is free
again. -/
theorem works (phase : service.Phase last?) (hasWorkers : 0 < service.workers)
    {machine : Machine ω JobStatus} (works : service.machine.Works machine) :
    (service.withMachine machine).Phase last? := by
  cases phase with
  | unused admission unreported working =>
      rw [withMachine_of_nil unreported working]
      exact .unused admission unreported working
  | vacant on ended admission unreported working =>
      rw [withMachine_of_nil unreported working]
      rcases on.works works with ⟨session', stage', on', same⟩
      obtain rfl := same ended
      have stillEnded := on'.run.ended_iff.mpr ended.isTerminal
      exact .vacant on' stillEnded admission unreported working
  | occupied on ongoing admission unreported working =>
      rcases on.works works with ⟨session', stage', on', -⟩
      have sameSession := on'.session_eq
      have sameValue := on'.value?_eq
      rcases on'.run.ongoing_or_ended with ongoing | ended
      · rw [withMachine_of_ongoing unreported working (sameSession ▸ ongoing.notices)
          (sameValue.trans ongoing.notDone)]
        exact .occupied on' ongoing admission unreported working
      · rcases ended.isOver with ⟨status, isOver⟩
        rcases ended.done with ⟨returned, rfl⟩
        rw [withMachine_of_ended unreported working (sameSession ▸ isOver.notices)
          (sameValue ▸ rfl)]
        refine .vacant on' ended ?_ rfl rfl
        rw [admission, sameSession]
        exact Admission.release_report hasWorkers _ _

/-- A signal reaches at most the job that runs. -/
theorem act (phase : service.Phase last?) (place : Nat) (signal : Signal) :
    Phase { service with machine := service.machine.modifyControl place signal.act } last? := by
  cases phase with
  | unused admission unreported working => exact .unused admission unreported working
  | vacant on ended admission unreported working =>
      rcases on.act place signal with ⟨session', on', sameResult, -, sameStatus⟩
      have stillEnded := on'.run.ended_iff.mpr (sameStatus ended.isTerminal ▸ ended.isTerminal)
      exact .vacant on' stillEnded (sameResult ▸ admission) unreported working
  | occupied on ongoing admission unreported working =>
      rcases on.act place signal with ⟨session', on', -, sameNotices, -⟩
      rcases on'.run.ongoing_or_ended with stillOngoing | ended
      · exact .occupied on' stillOngoing admission unreported working
      · rcases ended.isOver with ⟨status, isOver⟩
        have told := isOver.notices
        rw [sameNotices, ongoing.notices] at told
        exact nomatch told

theorem permits_of_free (phase : service.Phase last?) (free : service.admission.busy = false) :
    service.admission.permits = service.workers := by
  cases phase with
  | unused admission unreported working => rw [admission]; rfl
  | vacant on ended admission unreported working => rw [admission]
  | occupied on ongoing admission unreported working => simp [admission] at free

theorem pending_of_free (phase : service.Phase last?) (free : service.admission.busy = false) :
    service.unreported = [] ∧ service.working = [] := by
  cases phase with
  | unused admission unreported working => exact ⟨unreported, working⟩
  | vacant on ended admission unreported working => exact ⟨unreported, working⟩
  | occupied on ongoing admission unreported working => simp [admission] at free

theorem isOver_of_free (phase : service.Phase (some job)) (free : service.admission.busy = false) :
    ∃ status result, service.IsOver job status result := by
  cases phase with
  | vacant on ended admission unreported working => exact ⟨_, _, _, _, on, ended, rfl, rfl⟩
  | occupied on ongoing admission unreported working => simp [admission] at free

end Phase

theorem mem_dropLast_or_getLast? {jobs : List Job} (jobMem : job ∈ jobs) :
    job ∈ jobs.dropLast ∨ jobs.getLast? = some job := by
  rcases List.eq_nil_or_concat' jobs with rfl | ⟨earlier, last, rfl⟩
  · exact nomatch jobMem
  · rw [List.dropLast_concat, List.getLast?_concat]
    rcases List.mem_append.mp jobMem with isEarlier | isLast
    · exact .inl isEarlier
    · exact .inr (congrArg some (List.mem_singleton.mp isLast).symm)

/-- A job that is admitted has a session and a task of its own. -/
theorem submitted_onMachine (attached : service.machine.Attached) (id : String)
    (configuration : Configuration) (context : Context) :
    (service.submitted id configuration).OnMachine (service.hosting configuration context)
      (configuration.jobSession listeners)
      (.ready (configuration.runJob service.setting context)) := by
  have opens := Machine.openSession_opens service.machine configuration listeners attached
  have hasSession : ((service.machine.openSession (configuration.jobSession listeners)).1.view
      service.machine.sessions.length).session = some (configuration.jobSession listeners) :=
    List.getElem?_concat_length
  have spawned : (service.hosting configuration context).view service.machine.sessions.length = _ :=
    Machine.view_spawn _
  refine ⟨(congrArg View.session spawned).trans hasSession, ?_,
    .waiting ⟨rfl, rfl, rfl, rfl, rfl⟩ rfl rfl⟩
  exact (congrArg View.stages spawned).trans
    (congrArg (Function.update · _ _) (funext opens.noCalls))

namespace Stands

theorem initial {settings : Settings} {registry : Registry ω} {world : World ω}
    (begins : initial? settings registry world = some first)
    (hasWorkers : 0 < settings.workerPoolSize.toNat) : first.Stands [] := by
  rw [initial?] at begins
  split at begins
  · obtain rfl := Option.some.inj begins
    exact
      { hasWorkers
        attached := fun _ taskMem => nomatch taskMem
        earlier := fun _ jobMem => nomatch jobMem
        distinct := List.nodup_nil
        phase := .unused rfl rfl rfl }
  · exact nomatch begins

theorem isOver_of_free (stands : service.Stands admitted) (free : service.admission.busy = false) :
    ∀ job ∈ admitted, ∃ status result, service.IsOver job status result := by
  intro job jobMem
  rcases mem_dropLast_or_getLast? jobMem with isEarlier | isLast
  · exact stands.earlier job isEarlier
  · exact (isLast ▸ stands.phase : service.Phase (some job)).isOver_of_free free

theorem accept (stands : service.Stands admitted) {id : String} {configuration : Configuration}
    {context : Context} (isNew : ∀ job ∈ admitted, job.id ≠ id)
    (starts : service.start id configuration context = (later, .ok ())) :
    later.Stands (admitted ++ [service.submitted id configuration]) := by
  cases free : service.admission.busy with
  | true =>
      rw [start_of_busy free] at starts
      exact nomatch congrArg Prod.snd starts
  | false =>
      have permits := stands.phase.permits_of_free free
      have pending := stands.phase.pending_of_free free
      have started := starts
      rw [start_of_free free (permits ▸ stands.hasWorkers), permits, pending.1, pending.2] at starts
      obtain rfl := (Prod.mk.inj starts).1
      refine ⟨stands.hasWorkers, ?_, ?_, ?_, ?_⟩
      · exact (stands.attached.openSession _).spawn (by simp [Machine.openSession]) _
      · intro job jobMem
        rw [List.dropLast_concat] at jobMem
        rcases stands.isOver_of_free free job jobMem with ⟨status, result, isOver⟩
        exact ⟨status, result, isOver.start started⟩
      · rw [List.map_append, List.nodup_append]
        refine ⟨stands.distinct, List.nodup_cons.mpr ⟨List.not_mem_nil, List.nodup_nil⟩, ?_⟩
        intro earlier earlierMem other otherMem
        rcases List.mem_map.mp earlierMem with ⟨job, jobMem, rfl⟩
        rw [List.map_singleton, List.mem_singleton] at otherMem
        exact otherMem ▸ isNew job jobMem
      · rw [List.getLast?_concat]
        have on := submitted_onMachine stands.attached id configuration context
        exact .occupied on ⟨nofun, rfl, rfl⟩ rfl rfl rfl

theorem refuse (stands : service.Stands admitted) {id : String} {configuration : Configuration}
    {context : Context} {error : EngineError}
    (refuses : service.start id configuration context = (later, .error error)) :
    later = service := by
  cases free : service.admission.busy with
  | true =>
      rw [start_of_busy free] at refuses
      exact (congrArg Prod.fst refuses).symm
  | false =>
      have permits := stands.phase.permits_of_free free
      rw [start_of_free free (permits ▸ stands.hasWorkers)] at refuses
      exact nomatch congrArg Prod.snd refuses

theorem steer (stands : service.Stands admitted) {id : String} (signal : Signal)
    (steers : service.steer id signal.act = .ok later) : later.Stands admitted := by
  rcases steer_eq_ok steers with ⟨job, -, rfl⟩
  refine ⟨stands.hasWorkers, ?_, ?_, stands.distinct, stands.phase.act job.session signal⟩
  · intro task taskMem
    simpa [Machine.modifyControl, Machine.modifySession] using stands.attached task taskMem
  · intro earlier earlierMem
    rcases stands.earlier earlier earlierMem with ⟨status, result, isOver⟩
    exact ⟨status, result, isOver.act job.session signal rfl⟩

theorem work (stands : service.Stands admitted) {machine : Machine ω JobStatus}
    (works : service.machine.Works machine) : (service.withMachine machine).Stands admitted where
  hasWorkers := stands.hasWorkers
  attached := works.attached stands.attached
  earlier job jobMem := by
    rcases stands.earlier job jobMem with ⟨status, result, isOver⟩
    exact ⟨status, result, isOver.works works rfl⟩
  distinct := stands.distinct
  phase := stands.phase.works stands.hasWorkers works

end Stands

/-- A history adds the jobs that it admits to those admitted before. -/
theorem History.stands {before : List Job} (history : History first admitted last)
    (stands : first.Stands before)
    (distinct : ∀ job ∈ admitted, ∀ earlier ∈ before, earlier.id ≠ job.id) :
    last.Stands (before ++ admitted) := by
  induction history with
  | rest => rwa [List.append_nil]
  | @accept last after admitted history id configuration context isNew starts ih =>
      have here := distinct _ (List.mem_append_right _ (List.mem_singleton_self _))
      have stands := ih fun job jobMem => distinct job (List.mem_append_left _ jobMem)
      rw [← List.append_assoc]
      refine stands.accept (fun job jobMem => ?_) starts
      rcases List.mem_append.mp jobMem with earlier | now
      · exact here job earlier
      · exact isNew job now
  | refuse history refuses ih =>
      rw [(ih distinct).refuse refuses]
      exact ih distinct
  | steer history signal steers ih => exact (ih distinct).steer signal steers
  | work history works ih => exact (ih distinct).work works

end Service

end TestEngine
