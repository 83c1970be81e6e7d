import TestEngine.Proofs.Service.Admission

/-!
# What clients see of a service

The jobs of a service run one after the other. Whatever its clients have asked before, a service
admits a job exactly when all jobs before it are over, it knows the last job only, and when that job
is over its result is complete and is told from then on, until another job is admitted.
-/

namespace TestEngine

variable {ω : Type}

namespace Service

/-! ### Views of clients -/

/-- A service that does not know an id. -/
structure Forgets (service : Service ω) (id : String) : Prop where
  status : service.status id = .error (.jobNotFound id)
  info : service.info id = .error (.jobNotFound id)
  result : service.result id = .error (.jobNotFound id)
  steer : ∀ change, service.steer id change = .error (.jobNotFound id)
  awaitEnd : ∀ fuel limit, service.awaitEnd fuel limit id = .error (.jobNotFound id)

/-- A service that tells the end of a job: the result is that of the job's session, it is complete,
and neither it nor the status changes before another job is admitted. -/
structure Settles (service : Service ω) (id : String) (status : JobStatus)
    (result : ConfigurationResult) : Prop where
  isTerminal : status.isTerminal
  finalized : ∃ job, service.admission.job? id = .ok job ∧ (service.jobSession job).finalized ∧
    (service.jobSession job).result = result
  stop : result.stop.isSome
  runStatus : result.runStatus.isTerminal
  lasts : ∀ later, History service [] later →
    later.status id = .ok status ∧ later.result id = .ok result

/-- What a service keeps to at each point of its history: its jobs run one after the other. -/
structure Serial (first service : Service ω) (admitted : List Job) : Prop where
  /-- At most one job is not over. -/
  alone : ∀ job ∈ admitted, ∀ other ∈ admitted,
    ¬(service.jobSession job).control.status.isTerminal →
      ¬(service.jobSession other).control.status.isTerminal → job = other
  /-- A job is admitted exactly when all jobs before it are over. -/
  admits : ∀ id configuration context,
    (service.start id configuration context).2 = .ok () ↔
      ∀ job ∈ admitted, (service.jobSession job).control.status.isTerminal
  /-- A refusal changes nothing. -/
  refuses : ∀ id configuration context,
    (¬∀ job ∈ admitted, (service.jobSession job).control.status.isTerminal) →
      service.start id configuration context =
        (service, .error (.rejected "Another execution is active"))
  /-- The last job is the only one that is known. -/
  jobs : ∀ id job, service.admission.jobs.get? id = some job ↔
    admitted.getLast? = some job ∧ job.id = id
  forgets : ∀ job ∈ admitted.dropLast, service.Forgets job.id
  /-- The result of the last job is kept once the job is over. -/
  results : ∀ id, (service.admission.results.get? id).isSome ↔
    ∃ job, admitted.getLast? = some job ∧ job.id = id ∧
      (service.jobSession job).control.status.isTerminal
  settles : ∀ id status, service.status id = .ok status → status.isTerminal →
    ∃ result, service.Settles id status result
  /-- Whoever waits for the end of a job is told the end. -/
  awaits : ∀ fuel limit id after status,
    service.awaitEnd fuel limit id = .ok (after, some status) →
      History first admitted after ∧ ∃ result, after.Settles id status result

/-! ### What the phases show -/

variable {service first last later : Service ω} {admitted : List Job} {job : Job} {id : String}
  {status : JobStatus} {result : ConfigurationResult}

theorem jobSession_eq {session : Session} {stage : Stage ω JobStatus}
    (on : job.OnMachine service.machine session stage) : service.jobSession job = session :=
  on.session_eq

theorem IsOver.isTerminal (isOver : service.IsOver job status result) :
    (service.jobSession job).control.status.isTerminal := by
  rcases isOver with ⟨session, stage, on, ended, -⟩
  rw [jobSession_eq on]
  exact ended.isTerminal

theorem IsOver.complete (isOver : service.IsOver job status result) :
    (service.jobSession job).finalized ∧ result.stop.isSome ∧ result.runStatus.isTerminal := by
  rcases isOver with ⟨session, stage, on, ended, -, rfl⟩
  rcases ended.isOver with ⟨status, isOver⟩
  rw [jobSession_eq on]
  refine ⟨isOver.finalized, isOver.result.stop, ?_⟩
  rcases isOver.how with ⟨finished, -⟩ | interrupted
  · rw [(isOver.result.finished finished).1]
    rfl
  · rw [(isOver.result.interrupted interrupted).1]
    rfl

theorem Phase.jobs {last? : Option Job} (phase : service.Phase last?) (id : String) :
    service.admission.jobs.get? id = last?.filter fun job => job.id = id := by
  cases phase with
  | unused admission unreported working =>
      rw [admission]
      rfl
  | occupied on ongoing admission unreported working =>
      rw [admission, Option.filter_some]
      simp [NameMap.get?, NameMap.lookup]
  | vacant on ended admission unreported working =>
      rw [admission, Option.filter_some]
      simp [NameMap.get?, NameMap.lookup]

theorem Phase.results {last? : Option Job} (phase : service.Phase last?) (id : String) :
    service.admission.results.get? id =
      (last?.filter fun job =>
        job.id = id ∧ (service.jobSession job).control.status.isTerminal).map fun job =>
          (service.jobSession job).result := by
  cases phase with
  | unused admission unreported working =>
      rw [admission]
      rfl
  | occupied on ongoing admission unreported working =>
      have ongoing := ongoing.notTerminal
      rw [admission, Option.filter_some, jobSession_eq on]
      simp [NameMap.get?, NameMap.lookup, NameMap.empty, ongoing]
  | vacant on ended admission unreported working =>
      have terminal := ended.isTerminal
      rw [admission, Option.filter_some, jobSession_eq on]
      simp only [NameMap.get?, NameMap.lookup, terminal, and_true, decide_eq_true_eq]
      split
      · exact congrArg some (congrArg Session.result (jobSession_eq on).symm)
      · rfl

theorem Phase.notTerminal_of_busy {last? : Option Job} (phase : service.Phase last?)
    (busy : service.admission.busy) :
    ∃ job, last? = some job ∧ ¬(service.jobSession job).control.status.isTerminal := by
  cases phase with
  | unused admission unreported working => simp [admission, Admission.initial] at busy
  | vacant on ended admission unreported working => simp [admission] at busy
  | occupied on ongoing admission unreported working =>
      refine ⟨_, rfl, ?_⟩
      rw [jobSession_eq on]
      exact ongoing.notTerminal

theorem job?_eq_ok : service.admission.job? id = .ok job ↔
    service.admission.jobs.get? id = some job := by
  rw [Admission.job?]
  split <;> simp_all

theorem forgets_of_get? (noJob : service.admission.jobs.get? id = none)
    (noResult : service.admission.results.get? id = none) : service.Forgets id := by
  have unknown : service.admission.job? id = .error (.jobNotFound id) := by
    rw [Admission.job?, noJob]
  refine ⟨?_, ?_, ?_, fun change => ?_, fun fuel limit => ?_⟩
  · rw [Service.status, unknown]
    rfl
  · rw [Service.info, unknown]
    rfl
  · rw [Service.result, noResult, unknown]
    rfl
  · rw [Service.steer, unknown]
    rfl
  · rw [Service.awaitEnd, unknown]
    rfl

namespace Stands

theorem free_iff (stands : service.Stands admitted) :
    service.admission.busy = false ↔
      ∀ job ∈ admitted, (service.jobSession job).control.status.isTerminal := by
  constructor
  · intro free job jobMem
    rcases stands.isOver_of_free free job jobMem with ⟨status, result, isOver⟩
    exact isOver.isTerminal
  · intro allTerminal
    cases busy : service.admission.busy with
    | false => rfl
    | true =>
        rcases stands.phase.notTerminal_of_busy busy with ⟨job, isLast, notTerminal⟩
        exact absurd (allTerminal job (List.mem_of_getLast? isLast)) notTerminal

theorem isLast_of_notTerminal (stands : service.Stands admitted) (jobMem : job ∈ admitted)
    (notTerminal : ¬(service.jobSession job).control.status.isTerminal) :
    admitted.getLast? = some job := by
  rcases mem_dropLast_or_getLast? jobMem with isEarlier | isLast
  · rcases stands.earlier job isEarlier with ⟨status, result, isOver⟩
    exact absurd isOver.isTerminal notTerminal
  · exact isLast

theorem jobs_eq_some (stands : service.Stands admitted) :
    service.admission.jobs.get? id = some job ↔ admitted.getLast? = some job ∧ job.id = id := by
  rw [stands.phase.jobs, Option.filter_eq_some_iff, decide_eq_true_eq]

/-- The ids of the earlier jobs are not the id of the last one. -/
theorem id_ne_of_earlier (stands : service.Stands admitted) (jobMem : job ∈ admitted.dropLast)
    {other : Job} (isLast : admitted.getLast? = some other) : other.id ≠ job.id := by
  have distinct := stands.distinct
  rw [← List.dropLast_append_getLast? other isLast, List.map_append, List.nodup_append] at distinct
  exact (distinct.2.2 job.id (List.mem_map_of_mem jobMem) other.id (by simp)).symm

theorem forgets (stands : service.Stands admitted) (jobMem : job ∈ admitted.dropLast) :
    service.Forgets job.id := by
  refine forgets_of_get? ?_ ?_
  · rw [stands.phase.jobs, Option.filter_eq_none_iff]
    exact fun other isLast => by simpa using stands.id_ne_of_earlier jobMem isLast
  · rw [stands.phase.results, Option.map_eq_none_iff, Option.filter_eq_none_iff]
    exact fun other isLast => by simp [stands.id_ne_of_earlier jobMem isLast]

theorem status_eq_ok (stands : service.Stands admitted)
    (tells : service.status id = .ok status) :
    ∃ job, admitted.getLast? = some job ∧ job.id = id ∧
      (service.jobSession job).control.status = status := by
  rw [Service.status] at tells
  cases found : service.admission.job? id with
  | error error => simp [found, Except.map] at tells
  | ok job =>
      rw [found] at tells
      rcases stands.jobs_eq_some.mp (job?_eq_ok.mp found) with ⟨isLast, isJob⟩
      exact ⟨job, isLast, isJob, Except.ok.inj tells⟩

/-- What a service tells of its last job once that is over. -/
theorem tells_of_isOver (stands : service.Stands admitted) (isLast : admitted.getLast? = some job)
    (isOver : service.IsOver job status result) :
    service.admission.job? job.id = .ok job ∧ service.status job.id = .ok status ∧
      service.result job.id = .ok result := by
  have known := job?_eq_ok.mpr (stands.jobs_eq_some.mpr ⟨isLast, rfl⟩)
  have terminal := isOver.isTerminal
  rcases isOver with ⟨session, stage, on, -, rfl, rfl⟩
  have sameSession := jobSession_eq on
  refine ⟨known, ?_, ?_⟩
  · rw [Service.status, known]
    exact congrArg (Except.ok ∘ fun session => session.control.status) sameSession
  · have cached := stands.phase.results job.id
    rw [isLast, Option.filter_some, if_pos (by simp [terminal]), Option.map_some,
      sameSession] at cached
    rw [Service.result, cached]

theorem isOver_of_isTerminal (stands : service.Stands admitted)
    (isLast : admitted.getLast? = some job)
    (terminal : (service.jobSession job).control.status.isTerminal) :
    service.IsOver job (service.jobSession job).control.status (service.jobSession job).result := by
  have phase := stands.phase
  rw [isLast] at phase
  cases phase with
  | vacant on ended admission unreported working =>
      rw [jobSession_eq on]
      exact ⟨_, _, on, ended, rfl, rfl⟩
  | occupied on ongoing admission unreported working =>
      rw [jobSession_eq on] at terminal
      exact absurd terminal ongoing.notTerminal

theorem settles (stands : service.Stands admitted) (tells : service.status id = .ok status)
    (terminal : status.isTerminal) : ∃ result, service.Settles id status result := by
  rcases stands.status_eq_ok tells with ⟨job, isLast, rfl, rfl⟩
  have isOver := stands.isOver_of_isTerminal isLast terminal
  have complete := isOver.complete
  refine ⟨_, terminal, ⟨job, (stands.tells_of_isOver isLast isOver).1, complete.1, rfl⟩,
    complete.2.1, complete.2.2, fun later history => ?_⟩
  have laterStands := history.stands stands fun _ jobMem => nomatch jobMem
  rw [List.append_nil] at laterStands
  exact (laterStands.tells_of_isOver isLast (isOver.history history)).2

/-- A wait that ends is told the status that the job is over with. -/
theorem awaits (stands : service.Stands admitted) {fuel : Nat} {limit : Option Nat}
    (ends : service.awaitEnd fuel limit id = .ok (later, some status)) :
    (∃ machine, service.machine.Works machine ∧ later = service.withMachine machine) ∧
      ∃ result, later.Settles id status result := by
  rw [Service.awaitEnd] at ends
  cases found : service.admission.job? id with
  | error error => simp [found, Except.map] at ends
  | ok job =>
      rcases stands.jobs_eq_some.mp (job?_eq_ok.mp found) with ⟨isLast, rfl⟩
      rw [found] at ends
      have pairs := Prod.mk.inj (Except.ok.inj ends)
      have works : service.machine.Works _ := Machine.Works.rest.advanceUntil fuel
        (fun machine => (machine.session job.session).control.status.isTerminal)
        (limit.map fun limit => service.machine.world.clock + limit) fuel
      obtain rfl := pairs.1
      refine ⟨⟨_, works, rfl⟩, ?_⟩
      have laterStands := stands.work works
      have ended := pairs.2
      split at ended
      · rename_i terminal
        obtain rfl := Option.some.inj ended
        refine laterStands.settles ?_ terminal
        exact (laterStands.tells_of_isOver isLast
          (laterStands.isOver_of_isTerminal isLast terminal)).2.1
      · exact nomatch ended

end Stands

/-! ### Services -/

/-- A service runs its jobs one after the other, whatever its clients ask of it. -/
theorem History.serial {settings : Settings} {registry : Registry ω} {world : World ω}
    (begins : initial? settings registry world = some first)
    (hasWorkers : 0 < settings.workerPoolSize.toNat) (history : History first admitted service) :
    Serial first service admitted := by
  have stands : service.Stands admitted :=
    history.stands (Stands.initial begins hasWorkers) fun _ _ _ jobMem => nomatch jobMem
  constructor
  case alone =>
    intro job jobMem other otherMem notTerminal otherNotTerminal
    have isLast := stands.isLast_of_notTerminal jobMem notTerminal
    have otherIsLast := stands.isLast_of_notTerminal otherMem otherNotTerminal
    exact Option.some.inj (isLast.symm.trans otherIsLast)
  case admits =>
    intro id configuration context
    rw [← stands.free_iff]
    cases free : service.admission.busy with
    | true => simp [start_of_busy free]
    | false =>
        have permits := stands.phase.permits_of_free free
        simp [start_of_free free (permits ▸ stands.hasWorkers)]
  case refuses =>
    intro id configuration context notOver
    rw [← stands.free_iff, Bool.not_eq_false] at notOver
    exact start_of_busy notOver id configuration context
  case jobs => exact fun id job => stands.jobs_eq_some
  case forgets => exact fun job jobMem => stands.forgets jobMem
  case results =>
    intro id
    simp [stands.phase.results, Option.any_eq_true]
  case settles => exact fun id status tells terminal => stands.settles tells terminal
  case awaits =>
    intro fuel limit id after status ends
    rcases stands.awaits ends with ⟨⟨machine, works, rfl⟩, settles⟩
    exact ⟨history.work works, settles⟩

/-- A service with one worker and without capabilities. -/
def sample : Service Unit where
  settings := .standard
  admission := .initial 1
  machine := .initial .empty (.initial 0 .empty ())
  unreported := []
  working := []

/-- The service of one worker refuses another job while the small job is not over, admits one after
that, and knows of the second one only in the end. -/
theorem sample_serial :
    let busy := (sample.start "first" .sample (.ofProperties [])).1
    let free := busy.settle 9
    let admitted := [sample.submitted "first" .sample, free.submitted "second" .sample]
    ∃ service, History sample admitted service ∧
      (busy.start "second" .sample (.ofProperties [])).2 =
        .error (.rejected "Another execution is active") ∧
      free.status "first" = .ok .finished ∧ service.status "second" = .ok .finished ∧
      Serial sample service admitted := by
  intro busy free admitted
  have begins : initial? .standard .empty (.initial 0 .empty ()) = some sample := rfl
  have hasWorkers : 0 < Settings.standard.workerPoolSize.toNat := by decide
  have starts : sample.start "first" .sample (.ofProperties []) = (busy, .ok ()) := rfl
  have refuses : busy.start "second" .sample (.ofProperties []) =
      (busy, .error (.rejected "Another execution is active")) := rfl
  have refused : History sample [sample.submitted "first" .sample] busy :=
    (History.rest.accept nofun starts).refuse refuses
  have settled : History sample [sample.submitted "first" .sample] free := refused.settle 9
  have isNew : ∀ job ∈ [sample.submitted "first" .sample], job.id ≠ "second" := by decide +kernel
  have startsAgain : (free.start "second" .sample (.ofProperties [])).2 = .ok () :=
    ((History.serial begins hasWorkers settled).admits "second" .sample _).mpr (by decide +kernel)
  have history := (settled.accept isNew (Prod.ext rfl startsAgain)).settle 9
  exact ⟨_, history, rfl, by decide +kernel, by decide +kernel,
    History.serial begins hasWorkers history⟩

end Service

end TestEngine
