import TestEngine.Proofs.Service.Serial

/-!
# Refused submissions

A job reports its end before its worker is back, so there is a time at which the service is free and
a worker is still out. What happens then is told by the `Service.Turns` of a service: as in its
histories, but reports and workers come one by one, whenever they like. A submission that is refused
costs nothing unless it falls into that time and no worker is left. It is then refused after the
service has forgotten the job before it.
-/

namespace TestEngine

variable {ω : Type}

namespace Service

/-! ### Turns -/

/-- What happens to a service, with the jobs that it admits. A job that is over reports its end at
some time, and its worker comes back at some time after that. -/
inductive Turns : Service ω → List Job → Service ω → Prop
  | rest {service : Service ω} : Turns service [] service
  | accept {first last after : Service ω} {admitted : List Job} (turns : Turns first admitted last)
      {id : String} {configuration : Configuration} {context : Context}
      (starts : last.start id configuration context = (after, .ok ())) :
      Turns first (admitted ++ [last.submitted id configuration]) after
  | refuse {first last after : Service ω} {admitted : List Job} (turns : Turns first admitted last)
      {id : String} {configuration : Configuration} {context : Context} {error : EngineError}
      (refuses : last.start id configuration context = (after, .error error)) :
      Turns first admitted after
  | steer {first last after : Service ω} {admitted : List Job} (turns : Turns first admitted last)
      {id : String} (signal : Signal) (steers : last.steer id signal.act = .ok after) :
      Turns first admitted after
  | work {first last : Service ω} {admitted : List Job} (turns : Turns first admitted last)
      {machine : Machine ω JobStatus} (works : last.machine.Works machine) :
      Turns first admitted { last with machine }
  | report {first last : Service ω} {admitted : List Job} (turns : Turns first admitted last)
      {job : Job} (jobMem : job ∈ last.unreported) {notice : Notice}
      (told : (last.jobSession job).notices.getLast? = some notice) :
      Turns first admitted
        { last with
          admission := last.admission.report job.id notice.result
          unreported := last.unreported.erase job }
  | release {first last : Service ω} {admitted : List Job} (turns : Turns first admitted last)
      {job : Job} (jobMem : job ∈ last.working) (reported : job ∉ last.unreported)
      (done : (last.machine.value? job.task).isSome) :
      Turns first admitted
        { last with admission := last.admission.release, working := last.working.erase job }

variable {service first last later : Service ω} {admitted : List Job} {id : String}
  {configuration : Configuration} {context : Context} {error : EngineError}

/-! ### Refusals -/

/-- The service once it has forgotten what it knew of jobs. -/
def emptied (service : Service ω) : Service ω :=
  { service with admission := { service.admission with jobs := .empty, results := .empty } }

/-- A free service without a worker forgets its jobs before it refuses a submission. -/
theorem start_of_saturated (free : service.admission.busy = false)
    (noWorker : service.admission.permits = 0) (id : String) (configuration : Configuration)
    (context : Context) :
    service.start id configuration context =
      (service.emptied, .error (.rejected "Worker pool is saturated")) := by
  have submits (job : Job) : service.admission.submit job =
      (service.emptied.admission, .error (.rejected "Worker pool is saturated")) := by
    simp [Admission.submit, emptied, free, noWorker]
  simp only [start, submits]
  rfl

/-- A submission is refused without a trace if a job has not reported its end, and otherwise once
everything has been forgotten. -/
theorem start_refused (refuses : service.start id configuration context = (later, .error error)) :
    service.admission.busy ∧ later = service ∨
      service.admission.busy = false ∧ service.admission.permits = 0 ∧ later = service.emptied := by
  cases busy : service.admission.busy with
  | true =>
      rw [start_of_busy busy] at refuses
      exact .inl ⟨rfl, (congrArg Prod.fst refuses).symm⟩
  | false =>
      rcases Nat.eq_zero_or_pos service.admission.permits with noWorker | hasWorker
      · rw [start_of_saturated busy noWorker] at refuses
        exact .inr ⟨rfl, noWorker, (congrArg Prod.fst refuses).symm⟩
      · rw [start_of_free busy hasWorker] at refuses
        exact nomatch congrArg Prod.snd refuses

theorem emptied_of_unused (noJobs : service.admission.jobs = .empty)
    (noResults : service.admission.results = .empty) : service.emptied = service := by
  rw [emptied, ← noJobs, ← noResults]

theorem forgets_emptied (service : Service ω) (id : String) : service.emptied.Forgets id :=
  forgets_of_get? rfl rfl

/-! ### Accounts of jobs and workers -/

/-- Which job has not reported its end. -/
inductive Awaited (service : Service ω) (admitted : List Job) : Prop
  | nobody (free : service.admission.busy = false) (unreported : service.unreported = [])
      (isOver : ∀ job ∈ admitted, ∃ status result, service.IsOver job status result)
  | last {earlier : List Job} {job : Job} {session : Session} {stage : Stage ω JobStatus}
      (isLast : admitted = earlier ++ [job]) (busy : service.admission.busy)
      (unreported : service.unreported = [job])
      (on : job.OnMachine service.machine session stage)
      (isOver : ∀ job ∈ earlier, ∃ status result, service.IsOver job status result)

/-- The invariant of turns: every worker is at its place or with a job, all jobs but the last are
over, and only jobs that were admitted are known. -/
structure Tallies (service : Service ω) (admitted : List Job) : Prop where
  attached : service.machine.Attached
  permits : service.admission.permits + service.working.length = service.workers
  hasWorkers : admitted ≠ [] → 0 < service.workers
  awaited : service.Awaited admitted
  unused : admitted = [] →
    service.admission.jobs = .empty ∧ service.admission.results = .empty

namespace Awaited

theorem works (awaited : service.Awaited admitted) {machine : Machine ω JobStatus}
    (works : service.machine.Works machine) : Awaited { service with machine } admitted := by
  cases awaited with
  | nobody free unreported isOver =>
      refine .nobody free unreported fun job jobMem => ?_
      rcases isOver job jobMem with ⟨status, result, isOver⟩
      exact ⟨status, result, isOver.works works rfl⟩
  | last isLast busy unreported on isOver =>
      rcases on.works works with ⟨session', stage', on', -⟩
      refine .last isLast busy unreported on' fun job jobMem => ?_
      rcases isOver job jobMem with ⟨status, result, isOver⟩
      exact ⟨status, result, isOver.works works rfl⟩

theorem act (awaited : service.Awaited admitted) (place : Nat) (signal : Signal) :
    Awaited { service with machine := service.machine.modifyControl place signal.act }
      admitted := by
  cases awaited with
  | nobody free unreported isOver =>
      refine .nobody free unreported fun job jobMem => ?_
      rcases isOver job jobMem with ⟨status, result, isOver⟩
      exact ⟨status, result, isOver.act place signal rfl⟩
  | last isLast busy unreported on isOver =>
      rcases on.act place signal with ⟨session', on', -⟩
      refine .last isLast busy unreported on' fun job jobMem => ?_
      rcases isOver job jobMem with ⟨status, result, isOver⟩
      exact ⟨status, result, isOver.act place signal rfl⟩

/-- Nothing matters of the admission but whether a job has not reported its end. -/
theorem congr (awaited : service.Awaited admitted)
    (sameMachine : later.machine = service.machine)
    (sameBusy : later.admission.busy = service.admission.busy)
    (sameUnreported : later.unreported = service.unreported) : later.Awaited admitted := by
  have stays {job : Job} (isOver : ∃ status result, service.IsOver job status result) :
      ∃ status result, later.IsOver job status result := by
    rcases isOver with ⟨status, result, isOver⟩
    exact ⟨status, result, isOver.of_view_eq (congrArg (Machine.view · job.session) sameMachine)⟩
  cases awaited with
  | nobody free unreported isOver =>
      exact .nobody (sameBusy.trans free) (sameUnreported.trans unreported)
        fun job jobMem => stays (isOver job jobMem)
  | last isLast busy unreported on isOver =>
      exact .last isLast (sameBusy.trans busy) (sameUnreported.trans unreported) (sameMachine ▸ on)
        fun job jobMem => stays (isOver job jobMem)

/-- A job that reports its end is over. -/
theorem report (awaited : service.Awaited admitted) {job : Job} (jobMem : job ∈ service.unreported)
    {notice : Notice} (told : (service.jobSession job).notices.getLast? = some notice) :
    Awaited
      { service with
        admission := service.admission.report job.id notice.result
        unreported := service.unreported.erase job } admitted := by
  cases awaited with
  | nobody free unreported isOver => simp [unreported] at jobMem
  | @last earlier job session stage isLast busy unreported on isOver =>
      obtain rfl : _ = job := by simpa [unreported] using jobMem
      have ended : JobRun.Ended session stage := by
        refine on.run.ongoing_or_ended.resolve_left fun ongoing => ?_
        rw [jobSession_eq on, ongoing.notices] at told
        exact nomatch told
      refine .nobody rfl (by simp [unreported]) fun other otherMem => ?_
      rw [isLast, List.mem_append, List.mem_singleton] at otherMem
      rcases otherMem with isEarlier | rfl
      · exact isOver other isEarlier
      · exact ⟨_, _, session, stage, on, ended, rfl, rfl⟩

theorem isOver_of_free (awaited : service.Awaited admitted)
    (free : service.admission.busy = false) :
    service.unreported = [] ∧
      ∀ job ∈ admitted, ∃ status result, service.IsOver job status result := by
  cases awaited with
  | nobody _ unreported isOver => exact ⟨unreported, isOver⟩
  | last _ busy => exact absurd busy (by simp [free])

end Awaited

namespace Tallies

theorem initial {settings : Settings} {registry : Registry ω} {world : World ω}
    (begins : initial? settings registry world = some first) : first.Tallies [] := by
  rw [initial?] at begins
  split at begins
  · obtain rfl := Option.some.inj begins
    exact
      { attached := List.forall_mem_nil _
        permits := rfl
        hasWorkers := absurd rfl
        awaited := .nobody rfl rfl (List.forall_mem_nil _)
        unused := fun _ => ⟨rfl, rfl⟩ }
  · contradiction

theorem accept (tallies : service.Tallies admitted)
    (starts : service.start id configuration context = (later, .ok ())) :
    later.Tallies (admitted ++ [service.submitted id configuration]) := by
  have permits := tallies.permits
  cases free : service.admission.busy with
  | true =>
      rw [start_of_busy free] at starts
      exact nomatch congrArg Prod.snd starts
  | false =>
      rcases Nat.eq_zero_or_pos service.admission.permits with noWorker | hasWorker
      · rw [start_of_saturated free noWorker] at starts
        exact nomatch congrArg Prod.snd starts
      · rcases tallies.awaited.isOver_of_free free with ⟨unreported, isOver⟩
        have started := starts
        rw [start_of_free free hasWorker, unreported] at starts
        obtain rfl := (Prod.mk.inj starts).1
        refine ⟨?attached, ?permits, fun _ => ?hasWorkers, ?awaited, ?unused⟩
        case attached =>
          exact (tallies.attached.openSession _).spawn (by simp [Machine.openSession]) _
        case permits =>
          simp only [List.length_append, List.length_singleton]
          change _ = service.workers
          omega
        case hasWorkers =>
          change 0 < service.workers
          omega
        case awaited =>
          have on := submitted_onMachine tallies.attached id configuration context
          refine .last rfl rfl rfl on fun job jobMem => ?_
          rcases isOver job jobMem with ⟨status, result, isOver⟩
          exact ⟨status, result, isOver.start started⟩
        case unused => simp

theorem refuse (tallies : service.Tallies admitted)
    (refuses : service.start id configuration context = (later, .error error)) :
    later.Tallies admitted := by
  rcases start_refused refuses with ⟨-, rfl⟩ | ⟨-, -, rfl⟩
  · exact tallies
  · exact ⟨tallies.attached, tallies.permits, tallies.hasWorkers,
      tallies.awaited.congr rfl rfl rfl, fun _ => ⟨rfl, rfl⟩⟩

theorem steer (tallies : service.Tallies admitted) (signal : Signal)
    (steers : service.steer id signal.act = .ok later) : later.Tallies admitted := by
  rcases steer_eq_ok steers with ⟨job, -, rfl⟩
  refine ⟨fun task taskMem => ?_, tallies.permits, tallies.hasWorkers,
    tallies.awaited.act job.session signal, tallies.unused⟩
  simpa [Machine.modifyControl, Machine.modifySession] using tallies.attached task taskMem

theorem work (tallies : service.Tallies admitted) {machine : Machine ω JobStatus}
    (works : service.machine.Works machine) : Tallies { service with machine } admitted :=
  ⟨works.attached tallies.attached, tallies.permits, tallies.hasWorkers,
    tallies.awaited.works works, tallies.unused⟩

theorem report (tallies : service.Tallies admitted) {job : Job} (jobMem : job ∈ service.unreported)
    {notice : Notice} (told : (service.jobSession job).notices.getLast? = some notice) :
    Tallies
      { service with
        admission := service.admission.report job.id notice.result
        unreported := service.unreported.erase job } admitted := by
  refine ⟨tallies.attached, tallies.permits, tallies.hasWorkers,
    tallies.awaited.report jobMem told, ?_⟩
  rintro rfl
  cases tallies.awaited with
  | nobody _ unreported => simp [unreported] at jobMem
  | last isLast => simp at isLast

theorem release (tallies : service.Tallies admitted) {job : Job} (jobMem : job ∈ service.working) :
    Tallies
      { service with
        admission := service.admission.release, working := service.working.erase job }
      admitted := by
  have length := List.length_erase_of_mem jobMem
  have hasJob := List.length_pos_of_mem jobMem
  have permits := tallies.permits
  refine ⟨tallies.attached, ?_, tallies.hasWorkers, tallies.awaited.congr rfl rfl rfl,
    tallies.unused⟩
  simp only [Admission.release, length]
  change _ = service.workers
  omega

end Tallies

theorem Turns.tallies (turns : Turns first admitted last) (tallies : first.Tallies []) :
    last.Tallies admitted := by
  induction turns with
  | rest => exact tallies
  | accept _ starts ih => exact ih.accept starts
  | refuse _ refuses ih => exact ih.refuse refuses
  | steer _ signal steers ih => exact ih.steer signal steers
  | work _ works ih => exact ih.work works
  | report _ jobMem told ih => exact ih.report jobMem told
  | release _ jobMem reported done ih => exact ih.release jobMem

/-! ### What a refusal costs -/

/-- What a refused submission leaves of a service. -/
structure Refused (service later : Service ω) (admitted : List Job) : Prop where
  /-- Whatever runs goes on, and the flag and the workers are as they were. -/
  machine : later.machine = service.machine
  pending : later.unreported = service.unreported ∧ later.working = service.working
  busy : later.admission.busy = service.admission.busy
  permits : later.admission.permits = service.admission.permits
  /-- A refusal because of an active job costs nothing. -/
  ofBusy : service.admission.busy → later = service
  /-- One for want of a worker comes only when all jobs have reported their end and all workers are
  out all the same. It costs what was known of the jobs. -/
  ofFree : service.admission.busy = false →
    service.working.length = service.workers ∧
      (∀ job ∈ admitted, ∃ status result, service.IsOver job status result) ∧
        ∀ id, later.Forgets id
  /-- Nothing is lost unless the worker of a job is out that has reported its end. -/
  settled : (∀ job ∈ service.working, job ∈ service.unreported) → later = service

/-- A refused submission costs nothing, or what was known of jobs that are over. -/
theorem Turns.refused {settings : Settings} {registry : Registry ω} {world : World ω}
    (begins : initial? settings registry world = some first) (turns : Turns first admitted service)
    (refuses : service.start id configuration context = (later, .error error)) :
    service.Refused later admitted := by
  have tallies := turns.tallies (Tallies.initial begins)
  have permits := tallies.permits
  rcases start_refused refuses with ⟨busy, rfl⟩ | ⟨free, noWorker, rfl⟩
  · refine ⟨rfl, ⟨rfl, rfl⟩, rfl, rfl, fun _ => rfl, fun free => ?_, fun _ => rfl⟩
    simp [free] at busy
  · rcases tallies.awaited.isOver_of_free free with ⟨unreported, isOver⟩
    refine ⟨rfl, ⟨rfl, rfl⟩, rfl, rfl, fun busy => ?_, fun _ => ⟨?_, isOver, ?_⟩, fun none => ?_⟩
    · simp [free] at busy
    · omega
    · exact service.forgets_emptied
    · -- Without a worker on the way back there never was one, so no job has been admitted.
      have nobodyWorks : service.working = [] := by
        simpa [unreported, List.eq_nil_iff_forall_not_mem] using none
      have noWorkers : service.workers = 0 := by
        rw [← permits, noWorker, nobodyWorks]
        rfl
      have nobody : admitted = [] := by
        by_contra someJob
        exact Nat.lt_irrefl 0 (noWorkers ▸ tallies.hasWorkers someJob)
      rcases tallies.unused nobody with ⟨noJobs, noResults⟩
      exact emptied_of_unused noJobs noResults

/-- A second submission is refused while the small job waits for its first poll. -/
theorem sample_refused :
    ∃ service later, Turns sample [sample.submitted "first" .sample] service ∧
      service.start "second" .sample (.ofProperties []) =
        (later, .error (.rejected "Another execution is active")) ∧
      service.Refused later [sample.submitted "first" .sample] ∧
      later.status "first" = .ok .initialized := by
  have begins : initial? .standard .empty (.initial 0 .empty ()) = some sample := rfl
  let service := (sample.start "first" .sample (.ofProperties [])).1
  have turns : Turns sample [sample.submitted "first" .sample] service := .accept .rest rfl
  have refuses : service.start "second" .sample (.ofProperties []) =
      (service, .error (.rejected "Another execution is active")) := start_of_busy rfl ..
  exact ⟨service, service, turns, refuses, Turns.refused begins turns refuses, by decide +kernel⟩

/-- The small job has reported its end and its worker is not back. Another submission is then
refused, and the job that was known to be finished is not known any more. -/
theorem sample_refusal_forgets :
    ∃ service later, Turns sample [sample.submitted "first" .sample] service ∧
      service.start "second" .sample (.ofProperties []) =
        (later, .error (.rejected "Worker pool is saturated")) ∧
      service.status "first" = .ok .finished ∧
      later.status "first" = .error (.jobNotFound "first") := by
  let admitted := (sample.start "first" .sample (.ofProperties [])).1
  let worked : Service Unit := { admitted with machine := admitted.machine.settle 9 }
  have turns : Turns sample [sample.submitted "first" .sample] worked :=
    .work (.accept .rest rfl) (Machine.Works.rest.settle 9)
  let job := sample.submitted "first" .sample
  have hasNotice : ((worked.jobSession job).notices.getLast?).isSome := by decide +kernel
  rcases Option.isSome_iff_exists.mp hasNotice with ⟨notice, told⟩
  let reported : Service Unit :=
    { worked with
      admission := worked.admission.report "first" notice.result
      unreported := worked.unreported.erase job }
  have isReported : Turns sample [sample.submitted "first" .sample] reported :=
    turns.report (List.mem_singleton_self _) told
  have isOver : worked.status "first" = .ok .finished := by decide +kernel
  exact ⟨reported, reported.emptied, isReported, start_of_saturated rfl rfl .., isOver,
    (reported.forgets_emptied "first").status⟩

end Service

end TestEngine
