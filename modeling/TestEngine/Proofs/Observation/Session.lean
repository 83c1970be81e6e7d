import TestEngine.Machine.Wait
import TestEngine.Proofs.Observation.Script
import TestEngine.Proofs.Session.Life
import TestEngine.Proofs.Session.Onward

/-!
# Sessions that are observed

A session shows what its run has recorded in the results of the job and in those that its listeners
were told. Nothing that is done to a session depends on that: done to the mute session it leaves
the mute session behind. The trace cache is the one thing in the world that differs, for the results
of mute runs have no traces whose contents could be taken out of it.
-/

namespace TestEngine

open Calendar

variable {ω α : Type}

/-! ### Mute sessions -/

def Notice.mute (notice : Notice) : Notice := { notice with result := notice.result.mute }

def Session.mute (session : Session) : Session :=
  { session with result := session.result.mute, notices := session.notices.map Notice.mute }

def World.withCache (world : World ω) (cache : TraceCache) : World ω := { world with cache }

theorem World.giveUpLock_withCache (world : World ω) (cache : TraceCache) (lock : String)
    (ticket : Ticket) :
    (world.withCache cache).giveUpLock lock ticket =
      (world.giveUpLock lock ticket).withCache cache := by
  rw [giveUpLock, giveUpLock, apply_ite (withCache · cache)]
  rfl

namespace Session

variable (session : Session)

theorem carryOut_mute (hook : Hook) :
    session.mute.carryOut hook = (session.carryOut hook).mute := by
  cases hook <;> rfl

theorem foldl_carryOut_mute (hooks : List Hook) :
    hooks.foldl carryOut session.mute = (hooks.foldl carryOut session).mute := by
  induction hooks generalizing session with
  | nil => rfl
  | cons hook rest ih => rw [List.foldl_cons, carryOut_mute, ih, List.foldl_cons]

theorem notice_mute : session.mute.notice = session.notice.map mute id :=
  Prod.ext (foldl_carryOut_mute { session with control := session.control.notice.1 } _) rfl

theorem endWaiting_mute : session.mute.endWaiting = session.endWaiting.mute := by
  rw [endWaiting, endWaiting, apply_ite mute]
  rfl

theorem endInteraction_mute : session.mute.endInteraction = session.endInteraction.map mute id := by
  simp only [endInteraction, notice_mute, Prod.map, id_eq, endWaiting_mute]
  split <;> rfl

theorem receive_mute (signal : Signal) :
    session.mute.receive signal = (session.receive signal).mute := by
  rw [receive, receive, apply_ite mute]
  rfl

theorem begin?_mute (now : Instant) : session.mute.begin? now = (session.begin? now).map mute := by
  rw [begin?, begin?, Option.map_map]
  rfl

theorem reject_mute (now : Instant) : session.mute.reject now = (session.reject now).mute := by
  rw [reject, reject, apply_ite mute]
  rfl

theorem finalResult_mute (status : JobStatus) (now : Instant) :
    session.mute.finalResult status now = (session.finalResult status now).mute := by
  rw [finalResult, finalResult, ConfigurationResult.mute_finish]
  rfl

/-- The end of a mute job takes nothing out of the trace cache. -/
theorem finalize_mute (status : JobStatus) (now : Instant) (cache other : TraceCache) :
    session.mute.finalize status now other =
      ((session.finalize status now cache).1.mute, other) := by
  rw [finalize, finalize, finalResult_mute, ConfigurationResult.attachTraces_mute]
  split
  · rename_i finalized
    rw [if_pos (show session.finalized from finalized)]
  · rename_i unfinalized
    rw [if_neg (show ¬session.finalized from unfinalized)]
    simp [mute, Notice.mute, Function.comp_def, ConfigurationResult.mute_attachTraces]

theorem statusAfter_mute (ending : Ending) :
    session.mute.statusAfter ending = (session.statusAfter ending).map mute id := by
  cases ending with
  | completed => rw [statusAfter, statusAfter, notice_mute]; rfl
  | interrupted => rfl
  | crashed => rfl

end Session

/-! ### Recorded sessions -/

/-- A session all of whose results record what they are to. -/
structure Session.Recorded (recording : Recording) (session : Session) : Prop where
  result : session.result.Recorded recording
  notices : ∀ notice ∈ session.notices, notice.result.Recorded recording

namespace Session.Recorded

variable {recording : Recording} {before after : Session}

theorem congr (recorded : before.Recorded recording)
    (results : after.result.results = before.result.results)
    (notices : after.notices = before.notices) : after.Recorded recording := by
  refine ⟨?_, notices ▸ recorded.notices⟩
  rw [ConfigurationResult.Recorded, results]
  exact recorded.result

theorem onward (recorded : before.Recorded recording) (onward : before.Onward after) :
    after.Recorded recording := recorded.congr onward.results onward.notices

theorem publish (recorded : before.Recorded recording) {results : List ElementResult}
    (resultsRecorded : ∀ top ∈ results, top.Recorded recording) :
    Recorded recording { before with result := { before.result with results } } :=
  ⟨resultsRecorded, recorded.notices⟩

theorem reject (recorded : before.Recorded recording) (now : Instant) :
    (before.reject now).Recorded recording := by
  refine recorded.congr (before.reject_results now) ?_
  rw [Session.reject]
  split <;> rfl

theorem finalize (recorded : before.Recorded recording) (status : JobStatus) (now : Instant)
    (cache : TraceCache) : (before.finalize status now cache).1.Recorded recording := by
  rw [Session.finalize]
  split
  · exact recorded
  · have final : (before.finalResult status now).Recorded recording := by
      rw [finalResult, ConfigurationResult.finish_eq]
      exact recorded.result
    have attached := final.attachTraces cache
    refine ⟨attached, List.forall_mem_append.mpr ⟨recorded.notices, fun notice noticeMem => ?_⟩⟩
    rcases List.mem_map.mp noticeMem with ⟨listener, -, rfl⟩
    exact attached

end Session.Recorded

/-! ### Activities -/

def ActivityRun.mute (run : ActivityRun ω α) (cache : TraceCache) : ActivityRun ω α :=
  { run with session := run.session.mute, world := run.world.withCache cache }

/-- Activities do not look at the results of the run that calls them. -/
theorem Activity.advance_mute (activity : Activity ω α) (session : Session) (world : World ω)
    (cache : TraceCache) (lines : List String) :
    activity.advance session.mute (world.withCache cache) lines =
      (activity.advance session world lines).mute cache := by
  induction activity generalizing session world lines with
  | finish answer => rfl
  | crash => rfl
  | hang => rfl
  | sleep duration next ih =>
      rw [advance, advance]
      split
      · exact ih session world lines
      · rfl
  | log line next ih => exact ih session world _
  | signal sent next ih =>
      rw [advance, Session.receive_mute]
      exact ih (session.receive sent) world lines
  | consult effect next ih =>
      exact ih world.state session { world with state := effect world.state } lines

/-! ### Requests -/

section Requests

variable {request : Request}

def Carried.mute (carried : Carried ω request) (cache : TraceCache) : Carried ω request :=
  { carried with session := carried.session.mute, world := carried.world.withCache cache }

theorem ActivityRun.carried_mute (run : ActivityRun ω α) (cache : TraceCache) (abandoned : Bool)
    (answer : Reply α → request.Answer) (wait : Activity ω α → Option Alarm → Wait ω request) :
    (run.mute cache).carried abandoned answer wait =
      (run.carried abandoned answer wait).mute cache := by
  rcases run with ⟨session, world, lines, value | _ | ⟨activity, alarm⟩⟩
  · rfl
  · rfl
  · cases abandoned <;> rfl

theorem World.heed_withCache (world : World ω) (cache : TraceCache) (interrupted : Bool) :
    (world.withCache cache).heed interrupted =
      (world.heed interrupted).map (·.withCache cache) id := rfl

theorem World.balkAtLock_withCache (world : World ω) (cache : TraceCache) (lock : String) :
    (world.withCache cache).balkAtLock lock = (world.balkAtLock lock).withCache cache :=
  (world.callLock lock).1.giveUpLock_withCache cache lock (world.callLock lock).2

theorem Session.tryLock_mute (session : Session) (world : World ω) (cache : TraceCache)
    (lock : String) (timeout : Nat) :
    session.mute.tryLock (world.withCache cache) lock timeout =
      (session.tryLock world lock timeout).mute cache := by
  have gaveUp := World.giveUpLock_withCache (world.callLock lock).1 cache lock
    (world.callLock lock).2
  simp only [tryLock]
  change (if (world.callLock lock).1.locks.isOwner lock (world.callLock lock).2 then _
    else if timeout = 0 then _ else if session.control.interrupted then _ else _) = _
  split
  · rfl
  · split
    · exact congrArg (Carried.mk session.mute · _) gaveUp
    · split
      · exact congrArg (Carried.mk session.mute · _) gaveUp
      · rfl

theorem Session.leaveLine_mute (session : Session) (world : World ω) (cache : TraceCache)
    (lock : String) (timeout : Nat) (ticket : Ticket) (alarm : Alarm) :
    session.mute.leaveLine (world.withCache cache) lock timeout ticket alarm =
      (session.leaveLine world lock timeout ticket alarm).mute cache := by
  rw [leaveLine, leaveLine]
  change (if world.locks.isOwner lock ticket then _ else _) = _
  split
  · rfl
  · exact congrArg (Carried.mk session.mute · _) (world.giveUpLock_withCache cache lock ticket)

/-- What becomes of a request other than to publish does not depend on what is recorded. -/
theorem Request.carryOut_mute (silent : request.isSilent) (registry : Registry ω)
    (session : Session) (world : World ω) (cache : TraceCache) :
    request.carryOut registry session.mute (world.withCache cache) =
      (request.carryOut registry session world).mute cache := by
  cases request with
  | publish results => cases silent
  | checkpoint =>
      simp only [carryOut, Session.notice_mute, Prod.map, id_eq]
      split
      · rfl
      · change (if session.notice.1.control.paused then _ else _) = _
        split <;> rfl
  | sleep duration =>
      rw [carryOut, carryOut]
      change (if duration = 0 || session.control.interrupted then _ else _) = _
      split <;> rfl
  | elapsed => rfl
  | now => rfl
  | acquire lock timeout =>
      simp only [carryOut, World.heed_withCache, Prod.map, id_eq]
      change (if (world.heed session.control.interrupted).2 then _ else _) = _
      split
      · exact congrArg (Carried.mk session.mute · _) (World.balkAtLock_withCache _ cache lock)
      · exact session.tryLock_mute _ cache lock timeout
  | release lock => rfl
  | perform call =>
      simp only [carryOut, World.heed_withCache, Prod.map, id_eq, Activity.advance_mute]
      change (if (world.heed session.abandons).2 then _ else _) = _
      split
      · rfl
      · exact ActivityRun.carried_mute _ cache _ _ _
  | execute call =>
      simp only [carryOut, World.heed_withCache, Prod.map, id_eq, Activity.advance_mute]
      change (if (world.heed session.abandons).2 then _ else _) = _
      split
      · rfl
      · exact ActivityRun.carried_mute _ cache _ _ _
  | verify check property => rfl
  | moveTo cursor => rfl
  | noteStart => rfl
  | openInteraction => rfl
  | awaitInteraction =>
      simp only [carryOut]
      change (if session.control.interrupted then _
        else if (session.mapControl Control.park).control.canWake then _ else _) = _
      split
      · rw [Session.endInteraction_mute]
        rfl
      · split
        · let awake := (session.mapControl Control.park).mapControl Control.wake
          change (⟨awake.mute.endInteraction.1, _, .answered awake.mute.endInteraction.2⟩ :
            Carried ω .awaitInteraction) = _
          rw [Session.endInteraction_mute]
          rfl
        · rfl
  | cancelRun => rfl
  | awaitResume =>
      simp only [carryOut]
      change (if (session.mapControl Control.park).control.canWake then _ else _) = _
      split <;> rfl
  | beginJob =>
      have sameNow : (world.withCache cache).now = world.now := rfl
      rw [carryOut, carryOut, sameNow, Session.begin?_mute]
      cases session.begin? world.now <;> rfl
  | endJob ending =>
      rw [carryOut, carryOut, Session.statusAfter_mute]
      simp only [Prod.map, id_eq]
      rw [Session.finalize_mute _ _ _ world.cache]
      rfl

theorem Wait.isAwake_mute (wait : Wait ω request) (session : Session) (world : World ω)
    (cache : TraceCache) :
    wait.isAwake session.mute (world.withCache cache) = wait.isAwake session world := by
  cases wait <;> rfl

theorem Wait.resume_mute (wait : Wait ω request) (session : Session) (world : World ω)
    (cache : TraceCache) :
    wait.resume session.mute (world.withCache cache) = (wait.resume session world).mute cache := by
  cases wait with
  | checkpoint =>
      let awake := session.mapControl Control.wake
      change (⟨awake.mute.notice.1, _, .answered !awake.mute.notice.2⟩ :
        Carried ω .checkpoint) = _
      rw [Session.notice_mute]
      rfl
  | pause => rfl
  | interaction =>
      let awake := session.mapControl Control.wake
      change (⟨awake.mute.endInteraction.1, _, .answered awake.mute.endInteraction.2⟩ :
        Carried ω .awaitInteraction) = _
      rw [Session.endInteraction_mute]
      rfl
  | sleep alarm seen => rfl
  | @line lock timeout ticket alarm =>
      simp only [resume, World.heed_withCache, Prod.map, id_eq]
      change (if (world.heed session.control.interrupted).2 then _ else _) = _
      split
      · exact congrArg (Carried.mk session.mute · _)
          (World.giveUpLock_withCache _ cache lock ticket)
      · exact session.leaveLine_mute _ cache lock timeout ticket alarm
  | performing activity alarm =>
      simp only [resume, World.heed_withCache, Prod.map, id_eq, Activity.advance_mute]
      change (if (world.heed session.abandons).2 || session.abandons && !alarm.any world.isDue
        then _ else _) = _
      split
      · rfl
      · exact ActivityRun.carried_mute _ cache _ _ _
  | executing activity alarm lines =>
      simp only [resume, World.heed_withCache, Prod.map, id_eq, Activity.advance_mute]
      change (if (world.heed session.abandons).2 || session.abandons && !alarm.any world.isDue
        then _ else _) = _
      split
      · rfl
      · exact ActivityRun.carried_mute _ cache _ _ _

end Requests

/-! ### What sessions are left with -/

theorem Session.Recorded.begin? {recording : Recording} {session begun : Session} {now : Instant}
    (recorded : session.Recorded recording) (begins : session.begin? now = some begun) :
    begun.Recorded recording := by
  rcases Option.map_eq_some_iff.mp begins with ⟨control, -, rfl⟩
  exact recorded.congr rfl rfl

/-- Whatever is asked, a session goes on recording what it is to if what is published does. -/
theorem Session.Recorded.carryOut {recording : Recording} {session : Session}
    (recorded : session.Recorded recording) {request : Request} (silent : request.isSilent)
    (registry : Registry ω) (world : World ω) :
    (request.carryOut registry session world).session.Recorded recording := by
  have onward (ordinary : request.isOrdinary) :=
    request.carryOut_onward registry session world ordinary
  cases request with
  | beginJob =>
      rw [Request.carryOut]
      split
      · rename_i begun begins
        exact recorded.begin? begins
      · exact recorded
  | endJob ending =>
      have ended := (session.statusAfter_spec ending).1
      exact (recorded.congr ended.results ended.notices).finalize _ _ _
  | publish results => cases silent
  | _ => exact recorded.onward (onward rfl)

end TestEngine
