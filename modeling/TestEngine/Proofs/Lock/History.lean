import Mathlib.Logic.Function.Basic
import TestEngine.Machine.Wait
import TestEngine.Proofs.Lock.Table

/-!
# Histories of locks

What may happen to the locks of an engine: calls are made, polled and cancelled, guards are dropped,
and the clock moves on when no call can do anything more. A call that is cancelled may notice that
before it notices that it was handed the lock, so it may give the lock up again. A `Locking` holds
what has become of the calls on each name, in the order in which they were made.
-/

namespace TestEngine

variable {ω : Type}

/-! ### Calls -/

/-- What has become of a call for a lock, and when. -/
inductive LockFate where
  | waiting (alarm : Alarm)
  /-- The call has a guard that is live. -/
  | holding (since : Nat)
  /-- The guard of the call was dropped. -/
  | dropped (since : Nat)
  | refused (answer : LockAnswer) (moment : Nat)

namespace LockFate

def isWaiting : LockFate → Bool
  | waiting _ => true
  | _ => false

def isHolding : LockFate → Bool
  | holding _ => true
  | _ => false

/-- Whether the call uses the lock or stands in line for it. -/
def isActive : LockFate → Bool
  | waiting _ | holding _ => true
  | _ => false

def isGranted : LockFate → Bool
  | holding _ | dropped _ => true
  | _ => false

/-- The moment at which the call was answered. -/
def endedAt? : LockFate → Option Nat
  | waiting _ => none
  | holding since | dropped since => some since
  | refused _ moment => some moment

theorem isActive_of_isWaiting {fate : LockFate} (waits : fate.isWaiting) : fate.isActive := by
  cases fate <;> first | rfl | exact nomatch waits

theorem isActive_of_isHolding {fate : LockFate} (holds : fate.isHolding) : fate.isActive := by
  cases fate <;> first | rfl | exact nomatch holds

theorem isGranted_of_isHolding {fate : LockFate} (holds : fate.isHolding) : fate.isGranted := by
  cases fate <;> first | rfl | exact nomatch holds

theorem isWaiting_or_isHolding {fate : LockFate} (active : fate.isActive) :
    fate.isWaiting ∨ fate.isHolding := by
  cases fate with
  | waiting alarm => exact .inl rfl
  | holding since => exact .inr rfl
  | dropped since => exact nomatch active
  | refused answer moment => exact nomatch active

theorem exists_alarm {fate : LockFate} (waits : fate.isWaiting) :
    ∃ alarm, fate = .waiting alarm := by
  cases fate with
  | waiting alarm => exact ⟨alarm, rfl⟩
  | holding since => exact nomatch waits
  | dropped since => exact nomatch waits
  | refused answer moment => exact nomatch waits

end LockFate

/-- A call for a lock, made at a moment and cancelled with a token. -/
structure LockCall where
  ticket : Ticket
  timeout : Nat
  token : Option Nat
  start : Nat
  fate : LockFate

/-- What has become of a call that was carried out as far as it goes. -/
def Outcome.lockFate {name : String} {timeout : Nat} (clock : Nat) :
    Outcome ω (.acquire name timeout) → LockFate
  | .answered .granted => .holding clock
  | .answered answer => .refused answer clock
  | .waiting (.line _ alarm) => .waiting alarm

/-! ### Steps -/

/-- What can happen to locks. A call is told by its name and by its place among the calls on the
name. -/
inductive LockEvent where
  | call (name : String) (timeout : Nat) (token : Option Nat)
  /-- A call is made with a cancelled token and does not try for the lock. -/
  | balk (name : String) (timeout : Nat) (token : Option Nat)
  | poll (name : String) (place : Nat)
  /-- A call notices that it is cancelled before anything else. -/
  | abandon (name : String) (place : Nat)
  | drop (name : String) (place : Nat)
  | cancel (token : Nat)
  | tick (moment : Nat)
  | elsewhere

/-- The name whose lock an event is about. -/
def LockEvent.name? : LockEvent → Option String
  | call name _ _ | balk name _ _ | poll name _ | abandon name _ | drop name _ => some name
  | cancel _ | tick _ | elsewhere => none

/-- Locks with the calls for them. -/
structure Locking (ω : Type) where
  world : World ω
  /-- The tokens that have been cancelled. -/
  cancelled : List Nat
  /-- The calls on a name, in the order in which they were made. -/
  calls : String → List LockCall
  /-- The places of the calls on a name that obtained the lock, in the order in which they did. -/
  grants : String → List Nat

namespace Locking

def initial (world : World ω) : Locking ω := ⟨world, [], fun _ => [], fun _ => []⟩

def isCancelled (locking : Locking ω) (token : Option Nat) : Bool :=
  token.any fun token => token ∈ locking.cancelled

/-- The session of a call with a token. -/
def session (locking : Locking ω) (token : Option Nat) : Session :=
  Session.unattended.mapControl fun control =>
    { control with interrupted := locking.isCancelled token }

/-- Whether a call can go on. -/
def isAwake (locking : Locking ω) (name : String) (call : LockCall) : Bool :=
  match call.fate with
  | .waiting alarm =>
    (Wait.line call.ticket alarm : Wait ω (.acquire name call.timeout)).isAwake
      (locking.session call.token) locking.world
  | _ => false

def Settled (locking : Locking ω) : Prop :=
  ∀ name, ∀ call ∈ locking.calls name, ¬locking.isAwake name call

/-- Enters a call between the calls before and after it on its name. -/
def enter (locking : Locking ω) (world : World ω) (name : String) (before : List LockCall)
    (call : LockCall) (after : List LockCall) : Locking ω where
  world := world
  cancelled := locking.cancelled
  calls := Function.update locking.calls name (before ++ call :: after)
  grants :=
    if call.fate.isHolding then
      Function.update locking.grants name (locking.grants name ++ [before.length])
    else locking.grants

/-- A call on a name that is carried out as far as it goes. -/
def callOn (locking : Locking ω) (name : String) (timeout : Nat)
    (token : Option Nat) : Locking ω :=
  let carried := (locking.session token).tryLock locking.world name timeout
  locking.enter carried.world name (locking.calls name)
    ⟨locking.world.nextTicket, timeout, token, locking.world.clock,
      carried.outcome.lockFate locking.world.clock⟩ []

/-- A call on a name that gives up before it tries for the lock. -/
def balkOn (locking : Locking ω) (name : String) (timeout : Nat) (token : Option Nat) :
    Locking ω :=
  locking.enter (locking.world.balkAtLock name) name (locking.calls name)
    ⟨locking.world.nextTicket, timeout, token, locking.world.clock,
      .refused .cancelled locking.world.clock⟩ []

/-- A poll of a call that waits with an alarm. -/
def pollOn (locking : Locking ω) (name : String) (before : List LockCall) (call : LockCall)
    (alarm : Alarm) (after : List LockCall) : Locking ω :=
  let carried := (locking.session call.token).leaveLine locking.world name call.timeout call.ticket
    alarm
  locking.enter carried.world name before
    { call with fate := carried.outcome.lockFate locking.world.clock } after

def abandonOn (locking : Locking ω) (name : String) (before : List LockCall) (call : LockCall)
    (after : List LockCall) : Locking ω :=
  locking.enter (locking.world.giveUpLock name call.ticket) name before
    { call with fate := .refused .cancelled locking.world.clock } after

def dropOn (locking : Locking ω) (name : String) (before : List LockCall) (call : LockCall)
    (since : Nat) (after : List LockCall) : Locking ω :=
  locking.enter (locking.world.releaseLock name) name before { call with fate := .dropped since }
    after

inductive Step (locking : Locking ω) : LockEvent → Locking ω → Prop
  | call (name : String) (timeout : Nat) (token : Option Nat) :
      Step locking (.call name timeout token) (locking.callOn name timeout token)
  | balk (name : String) (timeout : Nat) {token : Option Nat}
      (cancelled : locking.isCancelled token) :
      Step locking (.balk name timeout token) (locking.balkOn name timeout token)
  | poll {name : String} {before : List LockCall} {call : LockCall} {after : List LockCall}
      {alarm : Alarm} (has : locking.calls name = before ++ call :: after)
      (waits : call.fate = .waiting alarm) (awake : locking.isAwake name call) :
      Step locking (.poll name before.length)
        (locking.pollOn name before call alarm after)
  | abandon {name : String} {before : List LockCall} {call : LockCall} {after : List LockCall}
      (has : locking.calls name = before ++ call :: after) (waits : call.fate.isWaiting)
      (cancelled : locking.isCancelled call.token) :
      Step locking (.abandon name before.length)
        (locking.abandonOn name before call after)
  | drop {name : String} {before : List LockCall} {call : LockCall} {after : List LockCall}
      {since : Nat} (has : locking.calls name = before ++ call :: after)
      (holds : call.fate = .holding since) :
      Step locking (.drop name before.length)
        (locking.dropOn name before call since after)
  | cancel (token : Nat) :
      Step locking (.cancel token)
        { locking with cancelled := token :: locking.cancelled }
  | tick {moment : Nat} (settled : locking.Settled) (later : locking.world.clock ≤ moment)
      (inTime : ∀ name, ∀ call ∈ locking.calls name, ∀ alarm, call.fate = .waiting alarm →
        moment ≤ alarm.due) :
      Step locking (.tick moment)
        { locking with world := { locking.world with clock := moment } }
  | elsewhere {world : World ω} (sameLocks : world.locks = locking.world.locks)
      (sameClock : world.clock = locking.world.clock)
      (sameTickets : world.nextTicket = locking.world.nextTicket) :
      Step locking .elsewhere { locking with world }

/-- What happens to locks, event by event. -/
inductive History (first : Locking ω) :
    List LockEvent → Locking ω → Prop
  | start : History first [] first
  | step {last next : Locking ω} {events : List LockEvent} {event : LockEvent}
      (history : History first events last) (step : last.Step event next) :
      History first (events ++ [event]) next

end Locking

end TestEngine
