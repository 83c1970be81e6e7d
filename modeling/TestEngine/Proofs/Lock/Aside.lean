import TestEngine.Machine.Task
import TestEngine.Machine.Wait
import TestEngine.Proofs.Script.Closure

/-!
# What has nothing to do with locks

Only a request for a lock draws a ticket, and only such a request and the one that gives a lock back
change the lock table. Everything else that a task asks leaves both as they are, whatever the
capabilities do meanwhile, and however often the task has to wait.

Where a run is and which locks there are is seen by nothing but the requests for locks either.
Whatever else a task asks comes to the same with other locks, and at another place, and leaves those
as they are.
-/

namespace TestEngine

variable {ω α : Type}

/-- The locks and the tickets are as before. -/
structure World.SparesLocks (before after : World ω) : Prop where
  locks : after.locks = before.locks
  nextTicket : after.nextTicket = before.nextTicket

theorem World.SparesLocks.refl (world : World ω) : world.SparesLocks world := ⟨rfl, rfl⟩

theorem World.SparesLocks.heed {before after : World ω} (spares : before.SparesLocks after)
    (interrupted : Bool) : before.SparesLocks (after.heed interrupted).1 :=
  ⟨spares.locks, spares.nextTicket⟩

theorem World.SparesLocks.trans {world before after : World ω} (first : world.SparesLocks before)
    (rest : before.SparesLocks after) : world.SparesLocks after :=
  ⟨rest.locks.trans first.locks, rest.nextTicket.trans first.nextTicket⟩

theorem Activity.advance_sparesLocks (activity : Activity ω α) (session : Session) (world : World ω)
    (lines : List String) : world.SparesLocks (activity.advance session world lines).world := by
  induction activity generalizing session world lines with
  | finish answer => exact .refl world
  | crash => exact .refl world
  | hang => exact .refl world
  | sleep duration next ih =>
      rw [advance]
      split
      · exact ih session world lines
      · exact ⟨rfl, rfl⟩
  | log line next ih => exact ih session world _
  | signal sent next ih => exact ih _ world lines
  | consult effect next ih =>
      have spares := ih world.state session { world with state := effect world.state } lines
      exact ⟨spares.locks, spares.nextTicket⟩

theorem ActivityRun.carried_world {request : Request} (run : ActivityRun ω α) (abandoned : Bool)
    (answer : Reply α → request.Answer) (wait : Activity ω α → Option Alarm → Wait ω request) :
    (run.carried abandoned answer wait).world = run.world := by
  unfold carried
  split
  · rfl
  · rfl
  · split <;> rfl

namespace Request

variable {request : Request}

/-- Only who asks for a lock stands in line. -/
theorem ticket?_eq_none (aside : request.isLocking = false) (wait : Wait ω request) :
    wait.ticket? = none := by
  cases wait with
  | line => exact nomatch aside
  | _ => rfl

theorem carryOut_sparesLocks (registry : Registry ω) (session : Session) (world : World ω)
    (aside : request.isLocking = false) :
    world.SparesLocks (request.carryOut registry session world).world := by
  cases request with
  | acquire name timeout => exact nomatch aside
  | release name => exact nomatch aside
  | checkpoint =>
      simp only [carryOut]
      split
      · exact .refl world
      · split <;> exact .refl world
  | awaitResume =>
      simp only [carryOut]
      split <;> exact .refl world
  | awaitInteraction =>
      simp only [carryOut]
      split
      · exact .refl world
      · split <;> exact .refl world
  | sleep duration =>
      simp only [carryOut]
      split
      · exact .refl world
      · exact ⟨rfl, rfl⟩
  | perform call =>
      have heeded := (World.SparesLocks.refl world).heed session.abandons
      simp only [carryOut]
      split
      · exact heeded
      · rw [ActivityRun.carried_world]
        exact heeded.trans (Activity.advance_sparesLocks _ session _ [])
  | execute call =>
      have heeded := (World.SparesLocks.refl world).heed session.abandons
      simp only [carryOut]
      split
      · exact heeded
      · rw [ActivityRun.carried_world]
        exact heeded.trans (Activity.advance_sparesLocks _ session _ [])
  | beginJob =>
      simp only [carryOut]
      split <;> exact .refl world
  | endJob ending => exact ⟨rfl, rfl⟩
  | _ => exact .refl world

theorem resume_sparesLocks (session : Session) (world : World ω) (aside : request.isLocking = false)
    (wait : Wait ω request) : world.SparesLocks (wait.resume session world).world := by
  cases wait with
  | line => exact nomatch aside
  | checkpoint => exact .refl world
  | pause => exact .refl world
  | interaction => exact .refl world
  | sleep alarm seen => exact .refl world
  | performing activity alarm =>
      have heeded := (World.SparesLocks.refl world).heed session.abandons
      simp only [Wait.resume]
      split
      · exact heeded
      · rw [ActivityRun.carried_world]
        exact heeded.trans (activity.advance_sparesLocks session _ [])
  | executing activity alarm lines =>
      have heeded := (World.SparesLocks.refl world).heed session.abandons
      simp only [Wait.resume]
      split
      · exact heeded
      · rw [ActivityRun.carried_world]
        exact heeded.trans (activity.advance_sparesLocks session _ lines)

end Request

/-! ## Other locks, and another place -/

def Session.withCursor (session : Session) (cursor : Cursor) : Session := { session with cursor }

def World.withLocks (world : World ω) (locks : LockTable) (nextTicket : Ticket) : World ω :=
  { world with locks, nextTicket }

/-! ### Sessions -/

namespace Session

variable (session : Session) (cursor : Cursor)

theorem notice_withCursor :
    (session.withCursor cursor).notice = session.notice.map (withCursor · cursor) id := by
  have carriesOut (hooks : List Hook) (session : Session) :
      hooks.foldl carryOut (session.withCursor cursor) =
        (hooks.foldl carryOut session).withCursor cursor := by
    induction hooks generalizing session with
    | nil => rfl
    | cons hook rest ih =>
        have first : (session.withCursor cursor).carryOut hook =
            (session.carryOut hook).withCursor cursor := by
          cases hook <;> rfl
        rw [List.foldl_cons, first, ih, List.foldl_cons]
  exact Prod.ext (carriesOut _ { session with control := session.control.notice.1 }) rfl

theorem endWaiting_withCursor :
    (session.withCursor cursor).endWaiting = session.endWaiting.withCursor cursor := by
  rw [endWaiting, endWaiting, apply_ite (withCursor · cursor)]
  rfl

theorem endInteraction_withCursor : (session.withCursor cursor).endInteraction =
    session.endInteraction.map (withCursor · cursor) id := by
  simp only [endInteraction, notice_withCursor, Prod.map, id_eq, endWaiting_withCursor]
  split <;> rfl

theorem receive_withCursor (signal : Signal) :
    (session.withCursor cursor).receive signal = (session.receive signal).withCursor cursor := by
  rw [receive, receive, apply_ite (withCursor · cursor)]
  rfl

theorem begin?_withCursor (now : Calendar.Instant) :
    (session.withCursor cursor).begin? now = (session.begin? now).map (withCursor · cursor) := by
  rw [begin?, begin?, Option.map_map]
  rfl

theorem finalize_withCursor (status : JobStatus) (now : Calendar.Instant) (cache : TraceCache) :
    (session.withCursor cursor).finalize status now cache =
      (session.finalize status now cache).map (withCursor · cursor) id := by
  rw [finalize, finalize, apply_ite (Prod.map (withCursor · cursor) id)]
  rfl

theorem statusAfter_withCursor (ending : Ending) : (session.withCursor cursor).statusAfter ending =
    (session.statusAfter ending).map (withCursor · cursor) id := by
  cases ending with
  | completed => rw [statusAfter, statusAfter, notice_withCursor]; rfl
  | interrupted => rfl
  | crashed => rfl

end Session

/-! ### Activities -/

section Aside

variable (cursor : Cursor) (locks : LockTable) (nextTicket : Ticket)

def ActivityRun.aside (run : ActivityRun ω α) : ActivityRun ω α :=
  { run with
    session := run.session.withCursor cursor, world := run.world.withLocks locks nextTicket }

theorem Activity.advance_aside (activity : Activity ω α) (session : Session) (world : World ω)
    (lines : List String) :
    activity.advance (session.withCursor cursor) (world.withLocks locks nextTicket) lines =
      (activity.advance session world lines).aside cursor locks nextTicket := by
  induction activity generalizing session world lines with
  | finish answer => rfl
  | crash => rfl
  | hang => rfl
  | sleep duration next ih =>
      rw [advance, advance]
      split
      · exact ih session world lines
      · rfl
  | log line next ih => exact ih session world _
  | signal sent next ih =>
      rw [advance, Session.receive_withCursor]
      exact ih (session.receive sent) world lines
  | consult effect next ih =>
      exact ih world.state session { world with state := effect world.state } lines

/-! ### Requests -/

variable {request : Request}

/-- What a request comes to with other locks and at another place. -/
def Carried.aside (carried : Carried ω request) : Carried ω request :=
  { carried with
    session := carried.session.withCursor cursor
    world := carried.world.withLocks locks nextTicket }

theorem World.heed_withLocks (world : World ω) (interrupted : Bool) :
    (world.withLocks locks nextTicket).heed interrupted =
      (world.heed interrupted).map (·.withLocks locks nextTicket) id := rfl

theorem ActivityRun.carried_aside (run : ActivityRun ω α) (abandoned : Bool)
    (answer : Reply α → request.Answer) (wait : Activity ω α → Option Alarm → Wait ω request) :
    (run.aside cursor locks nextTicket).carried abandoned answer wait =
      (run.carried abandoned answer wait).aside cursor locks nextTicket := by
  rcases run with ⟨session, world, lines, value | _ | ⟨activity, alarm⟩⟩
  · rfl
  · rfl
  · cases abandoned <;> rfl

/-- The place where a run is once a request has been made. -/
def Request.placeAfter (cursor : Cursor) : Request → Cursor
  | moveTo place => place
  | _ => cursor

theorem Request.carryOut_aside (aside : request.isLocking = false) (registry : Registry ω)
    (session : Session) (world : World ω) :
    request.carryOut registry (session.withCursor cursor) (world.withLocks locks nextTicket) =
      (request.carryOut registry session world).aside (request.placeAfter cursor) locks
        nextTicket := by
  cases request with
  | acquire name timeout => exact nomatch aside
  | release name => exact nomatch aside
  | checkpoint =>
      simp only [carryOut, Session.notice_withCursor, Prod.map, id_eq]
      split
      · rfl
      · change (if session.notice.1.control.paused then _ else _) = _
        split <;> rfl
  | sleep duration =>
      rw [carryOut, carryOut]
      change (if duration = 0 || session.control.interrupted then _ else _) = _
      split <;> rfl
  | perform call =>
      simp only [carryOut, World.heed_withLocks, Prod.map, Activity.advance_aside]
      change (if (world.heed session.abandons).2 then _ else _) = _
      split
      · rfl
      · exact ActivityRun.carried_aside cursor locks nextTicket _ _ _ _
  | execute call =>
      simp only [carryOut, World.heed_withLocks, Prod.map, Activity.advance_aside]
      change (if (world.heed session.abandons).2 then _ else _) = _
      split
      · rfl
      · exact ActivityRun.carried_aside cursor locks nextTicket _ _ _ _
  | awaitInteraction =>
      simp only [carryOut]
      change (if session.control.interrupted then _
        else if (session.mapControl Control.park).control.canWake then _ else _) = _
      split
      · rw [Session.endInteraction_withCursor]
        rfl
      · split
        · let awake := (session.mapControl Control.park).mapControl Control.wake
          change (⟨(awake.withCursor cursor).endInteraction.1, _,
            .answered (awake.withCursor cursor).endInteraction.2⟩ : Carried ω .awaitInteraction) = _
          rw [Session.endInteraction_withCursor]
          rfl
        · rfl
  | awaitResume =>
      simp only [carryOut]
      change (if (session.mapControl Control.park).control.canWake then _ else _) = _
      split <;> rfl
  | beginJob =>
      have sameNow : (world.withLocks locks nextTicket).now = world.now := rfl
      rw [carryOut, carryOut, sameNow, Session.begin?_withCursor]
      cases session.begin? world.now <;> rfl
  | endJob ending =>
      rw [carryOut, carryOut, Session.statusAfter_withCursor]
      simp only [Prod.map, id_eq]
      rw [Session.finalize_withCursor]
      rfl
  | _ => rfl

theorem Wait.isAwake_aside (aside : request.isLocking = false) (wait : Wait ω request)
    (session : Session) (world : World ω) :
    wait.isAwake (session.withCursor cursor) (world.withLocks locks nextTicket) =
      wait.isAwake session world := by
  cases wait with
  | line => exact nomatch aside
  | _ => rfl

theorem Wait.resume_aside (aside : request.isLocking = false) (wait : Wait ω request)
    (session : Session) (world : World ω) :
    wait.resume (session.withCursor cursor) (world.withLocks locks nextTicket) =
      (wait.resume session world).aside cursor locks nextTicket := by
  cases wait with
  | line => exact nomatch aside
  | checkpoint =>
      let awake := session.mapControl Control.wake
      change (⟨(awake.withCursor cursor).notice.1, _,
        .answered !(awake.withCursor cursor).notice.2⟩ : Carried ω .checkpoint) = _
      rw [Session.notice_withCursor]
      rfl
  | pause => rfl
  | interaction =>
      let awake := session.mapControl Control.wake
      change (⟨(awake.withCursor cursor).endInteraction.1, _,
        .answered (awake.withCursor cursor).endInteraction.2⟩ : Carried ω .awaitInteraction) = _
      rw [Session.endInteraction_withCursor]
      rfl
  | sleep alarm seen => rfl
  | performing activity alarm =>
      simp only [resume, World.heed_withLocks, Prod.map, Activity.advance_aside]
      change (if (world.heed session.abandons).2 || session.abandons && !alarm.any world.isDue
        then _ else _) = _
      split
      · rfl
      · exact ActivityRun.carried_aside cursor locks nextTicket _ _ _ _
  | executing activity alarm lines =>
      simp only [resume, World.heed_withLocks, Prod.map, Activity.advance_aside]
      change (if (world.heed session.abandons).2 || session.abandons && !alarm.any world.isDue
        then _ else _) = _
      split
      · rfl
      · exact ActivityRun.carried_aside cursor locks nextTicket _ _ _ _

end Aside

/-- A request leaves a run at the place that it names. -/
theorem Request.carryOut_cursor (request : Request) (registry : Registry ω) (session : Session)
    (world : World ω) : (request.carryOut registry session world).session.cursor =
      request.placeAfter session.cursor := by
  cases aside : request.isLocking with
  | false =>
      have same := request.carryOut_aside session.cursor world.locks world.nextTicket aside registry
        session world
      exact congrArg (fun carried => carried.session.cursor) same
  | true =>
      cases request with
      | acquire name timeout =>
          simp only [carryOut]
          split
          · rfl
          · rw [Session.tryLock_session]
            rfl
      | release name => rfl
      | _ => exact nomatch aside

theorem Wait.resume_cursor {request : Request} (wait : Wait ω request) (session : Session)
    (world : World ω) : (wait.resume session world).session.cursor = session.cursor := by
  cases aside : request.isLocking with
  | false =>
      have same := wait.resume_aside session.cursor world.locks world.nextTicket aside session world
      exact congrArg (fun carried => carried.session.cursor) same
  | true =>
      cases wait with
      | line ticket alarm =>
          simp only [resume]
          split
          · rfl
          · rw [Session.leaveLine_session]
      | _ => exact nomatch aside

end TestEngine
