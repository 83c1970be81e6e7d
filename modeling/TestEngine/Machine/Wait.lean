import TestEngine.Machine.World
import TestEngine.Session

/-!
# Requests and waits

`Request.carryOut` says what becomes of a request: it is answered at once, or the task that made it
has to wait. What it waits for is a `Wait`, which is awake as soon as the wait is over, and resuming
it says again what becomes of the request. An interruption ends the wait for a lock or a capability;
if that has come as well, the world says which of them the task sees.
-/

namespace TestEngine

open Calendar

variable {ω α : Type}

/-! ### Activities -/

/-- Where an activity stands after it ran as far as it could. -/
inductive Halt (ω α : Type) where
  | returned (answer : α)
  | crashed
  | suspended (activity : Activity ω α) (alarm : Option Alarm)

/-- An activity with what it works on. -/
structure ActivityRun (ω α : Type) where
  session : Session
  world : World ω
  lines : List String
  halt : Halt ω α

/-- Sends a signal to the control of a run, if the run can be reached. -/
def Session.receive (session : Session) (signal : Signal) : Session :=
  if session.attended then session.mapControl signal.act else session

def Activity.advance : Activity ω α → Session → World ω → List String → ActivityRun ω α
  | .finish answer, session, world, lines => ⟨session, world, lines, .returned answer⟩
  | .crash, session, world, lines => ⟨session, world, lines, .crashed⟩
  | .hang, session, world, lines => ⟨session, world, lines, .suspended .hang none⟩
  | .sleep duration next, session, world, lines =>
    if duration = 0 then next.advance session world lines
    else
      let alarmed := world.setAlarm duration
      ⟨session, alarmed.1, lines, .suspended next (some alarmed.2)⟩
  | .log line next, session, world, lines => next.advance session world (lines ++ [line])
  | .signal sent next, session, world, lines =>
    next.advance (session.receive sent) world lines
  | .consult effect next, session, world, lines =>
    (next world.state).advance session { world with state := effect world.state } lines

/-! ### Waits -/

/-- What a task waits for that made a request. -/
inductive Wait (ω : Type) : Request → Type where
  | checkpoint : Wait ω .checkpoint
  | pause : Wait ω .awaitResume
  | interaction : Wait ω .awaitInteraction
  /-- It sleeps, since the pause flag had been written `seen` times. -/
  | sleep {duration : Nat} (alarm : Alarm) (seen : Nat) : Wait ω (.sleep duration)
  | line {lock : String} {timeout : Nat} (ticket : Ticket) (alarm : Alarm) :
    Wait ω (.acquire lock timeout)
  /-- It waits for a backend, which sleeps until an alarm or for ever. -/
  | performing {call : ActionCall} (activity : Activity ω (Except EngineError ActionResponse))
    (alarm : Option Alarm) : Wait ω (.perform call)
  /-- It waits for a function, which sleeps until an alarm or for ever, and has logged lines. -/
  | executing {call : FunctionCall} (activity : Activity ω (Except EngineError (List Property)))
    (alarm : Option Alarm) (lines : List String) : Wait ω (.execute call)

/-- What becomes of a request. -/
inductive Outcome (ω : Type) (request : Request) where
  | answered (answer : request.Answer)
  | waiting (wait : Wait ω request)

/-- A request that was carried out as far as it goes without waiting, with what it works on. -/
structure Carried (ω : Type) (request : Request) where
  session : Session
  world : World ω
  outcome : Outcome ω request

/-- Whether a call of a capability is to be abandoned. -/
def Session.abandons (session : Session) : Bool := session.attended && session.control.interrupted

/-- What becomes of the call of a capability whose activity ran as far as it goes. -/
def ActivityRun.carried {request : Request} (run : ActivityRun ω α) (abandoned : Bool)
    (answer : Reply α → request.Answer)
    (wait : Activity ω α → Option Alarm → Wait ω request) : Carried ω request :=
  match run.halt with
  | .returned value => ⟨run.session, run.world, .answered (answer (.returned value))⟩
  | .crashed => ⟨run.session, run.world, .answered (answer .crashed)⟩
  | .suspended activity alarm =>
    if abandoned then ⟨run.session, run.world, .answered (answer .abandoned)⟩
    else ⟨run.session, run.world, .waiting (wait activity alarm)⟩

/-- Calls for a lock, and looks for the lock before anything else. -/
def Session.tryLock (session : Session) (world : World ω) (lock : String) (timeout : Nat) :
    Carried ω (.acquire lock timeout) :=
  let ticket := (world.callLock lock).2
  let world := (world.callLock lock).1
  if world.locks.isOwner lock ticket then ⟨session, world, .answered .granted⟩
  else if timeout = 0 then ⟨session, world.giveUpLock lock ticket, .answered .timedOut⟩
  else if session.control.interrupted then
    ⟨session, world.giveUpLock lock ticket, .answered .cancelled⟩
  else
    let alarmed := world.setAlarm timeout
    ⟨session, alarmed.1, .waiting (.line ticket alarmed.2)⟩

/-- Ends the wait for a lock, and looks for the lock before anything else. -/
def Session.leaveLine (session : Session) (world : World ω) (lock : String) (timeout : Nat)
    (ticket : Ticket) (alarm : Alarm) : Carried ω (.acquire lock timeout) :=
  if world.locks.isOwner lock ticket then ⟨session, world, .answered .granted⟩
  else
    let answer := if world.isDue alarm then LockAnswer.timedOut else .cancelled
    ⟨session, world.giveUpLock lock ticket, .answered answer⟩

@[simp]
theorem Session.tryLock_session (session : Session) (world : World ω) (lock : String)
    (timeout : Nat) : (session.tryLock world lock timeout).session = session := by
  simp only [tryLock]
  split
  · rfl
  · split
    · rfl
    · split <;> rfl

@[simp]
theorem Session.leaveLine_session (session : Session) (world : World ω) (lock : String)
    (timeout : Nat) (ticket : Ticket) (alarm : Alarm) :
    (session.leaveLine world lock timeout ticket alarm).session = session := by
  simp only [leaveLine]
  split <;> rfl

/-- Carries out a request as far as it goes without waiting. -/
def Request.carryOut (registry : Registry ω) (session : Session) (world : World ω) :
    (request : Request) → Carried ω request
  | .checkpoint =>
    let noticed := session.notice
    if noticed.2 then ⟨noticed.1, world, .answered false⟩
    else if noticed.1.control.paused then
      ⟨noticed.1.mapControl Control.park, world, .waiting .checkpoint⟩
    else ⟨noticed.1, world, .answered true⟩
  | .awaitResume =>
    let session := session.mapControl Control.park
    if session.control.canWake then ⟨session.mapControl Control.wake, world, .answered ()⟩
    else ⟨session, world, .waiting .pause⟩
  | .openInteraction =>
    ⟨(session.setRunStatus .waiting).mapControl Control.beginInteraction, world, .answered ()⟩
  | .awaitInteraction =>
    let parked := session.mapControl Control.park
    if session.control.interrupted then
      ⟨session.endInteraction.1, world, .answered session.endInteraction.2⟩
    else if parked.control.canWake then
      let ended := (parked.mapControl Control.wake).endInteraction
      ⟨ended.1, world, .answered ended.2⟩
    else ⟨parked, world, .waiting .interaction⟩
  | .sleep duration =>
    if duration = 0 || session.control.interrupted then ⟨session, world, .answered ()⟩
    else
      let alarmed := world.setAlarm duration
      ⟨session, alarmed.1, .waiting (.sleep alarmed.2 session.control.writes)⟩
  | .elapsed => ⟨session, world, .answered world.clock⟩
  | .now => ⟨session, world, .answered world.now⟩
  | .acquire lock timeout =>
    let heeded := world.heed session.control.interrupted
    if heeded.2 then ⟨session, heeded.1.balkAtLock lock, .answered .cancelled⟩
    else session.tryLock heeded.1 lock timeout
  | .release lock => ⟨session, world.releaseLock lock, .answered ()⟩
  | .perform call =>
    let heeded := world.heed session.abandons
    if heeded.2 then ⟨session, heeded.1, .answered .abandoned⟩
    else
      let activity := match registry.backends.get? call.backend with
        | some backend => backend call
        | none => .crash
      let run := activity.advance session heeded.1 []
      run.carried run.session.abandons id .performing
  | .execute call =>
    let heeded := world.heed session.abandons
    if heeded.2 then ⟨session, heeded.1, .answered ([], .abandoned)⟩
    else
      let activity := match registry.runner with
        | some runner => runner call
        | none => .crash
      let run := activity.advance session heeded.1 []
      run.carried run.session.abandons (fun reply => (run.lines, reply)) fun activity alarm =>
        .executing activity alarm run.lines
  | .verify check property =>
    let answer := match registry.checks.get? check with
      | some check => check property
      | none => none
    ⟨session, world, .answered answer⟩
  | .moveTo cursor => ⟨{ session with cursor }, world, .answered ()⟩
  | .noteStart =>
    let start := session.result.start <|> some world.now
    ⟨{ session with result := { session.result with start } }, world, .answered ()⟩
  | .publish results =>
    ⟨{ session with result := { session.result with results } }, world, .answered ()⟩
  | .cancelRun =>
    ⟨(session.setRunStatus .cancelled).mapControl Control.interrupt, world, .answered ()⟩
  | .beginJob =>
    match session.begin? world.now with
    | some session => ⟨session, world, .answered none⟩
    | none => ⟨session, world, .answered (some session.control.status)⟩
  | .endJob ending =>
    let ended := session.statusAfter ending
    let finalized := ended.1.finalize ended.2 world.now world.cache
    ⟨finalized.1, { world with cache := finalized.2 }, .answered ended.2⟩

namespace Wait

variable {request : Request}

def alarm? : Wait ω request → Option Alarm
  | sleep alarm _ => some alarm
  | line _ alarm => some alarm
  | performing _ alarm => alarm
  | executing _ alarm _ => alarm
  | _ => none

def ticket? : Wait ω request → Option Ticket
  | line ticket _ => some ticket
  | _ => none

def isAwake (session : Session) (world : World ω) : Wait ω request → Bool
  | checkpoint | pause | interaction => session.control.canWake
  | sleep alarm seen =>
    world.isDue alarm || session.control.interrupted || session.control.writes != seen
  | @line _ lock _ ticket alarm =>
    world.locks.isOwner lock ticket || world.isDue alarm || session.control.interrupted
  | performing _ alarm => session.abandons || alarm.any world.isDue
  | executing _ alarm _ => session.abandons || alarm.any world.isDue

def resume (session : Session) (world : World ω) : Wait ω request → Carried ω request
  | checkpoint =>
    let noticed := (session.mapControl Control.wake).notice
    ⟨noticed.1, world, .answered !noticed.2⟩
  | pause => ⟨session.mapControl Control.wake, world, .answered ()⟩
  | interaction =>
    let ended := (session.mapControl Control.wake).endInteraction
    ⟨ended.1, world, .answered ended.2⟩
  | sleep _ _ => ⟨session, world, .answered ()⟩
  | @line _ lock timeout ticket alarm =>
    let heeded := world.heed session.control.interrupted
    if heeded.2 then ⟨session, heeded.1.giveUpLock lock ticket, .answered .cancelled⟩
    else session.leaveLine heeded.1 lock timeout ticket alarm
  | performing activity alarm =>
    let heeded := world.heed session.abandons
    if heeded.2 || session.abandons && !alarm.any world.isDue then
      ⟨session, heeded.1, .answered .abandoned⟩
    else
      let run := activity.advance session heeded.1 []
      run.carried run.session.abandons id .performing
  | executing activity alarm lines =>
    let heeded := world.heed session.abandons
    if heeded.2 || session.abandons && !alarm.any world.isDue then
      ⟨session, heeded.1, .answered (lines, .abandoned)⟩
    else
      let run := activity.advance session heeded.1 lines
      run.carried run.session.abandons (fun reply => (run.lines, reply)) fun activity alarm =>
        .executing activity alarm run.lines

end Wait

end TestEngine
