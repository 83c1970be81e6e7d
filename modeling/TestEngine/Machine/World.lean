import TestEngine.Lock
import TestEngine.Machine.Activity
import TestEngine.Result.Trace

/-!
# The world of runs

What all runs of an engine share: the clock, the locks, the trace cache, and the state `ω` of the
capabilities. When an interruption and what a run waits for have both come, it is left open which of
them the run sees. The world holds what becomes of it each time, so whatever is true of all worlds
is true both ways.
-/

namespace TestEngine

open Calendar

/-- The end of a wait. Of alarms that are due at one moment the one set first goes off first. -/
structure Alarm where
  due : Nat
  rank : Nat
  deriving DecidableEq

structure World (ω : Type) where
  /-- The calendar's time when the clock was at zero, in milliseconds. -/
  epoch : Int
  clock : Nat
  locks : LockTable
  /-- The calls that were handed a lock and have not been polled since. -/
  handed : List Ticket
  cache : TraceCache
  nextTicket : Ticket
  nextAlarm : Nat
  /-- Whether a run looks for an interruption first, each time that it matters; after that it does
  not. -/
  glances : List Bool
  state : ω

namespace World

variable {ω : Type}

def initial (epoch : Int) (cache : TraceCache) (state : ω) : World ω where
  epoch := epoch
  clock := 0
  locks := .empty
  handed := []
  cache := cache
  nextTicket := 0
  nextAlarm := 0
  glances := []
  state := state

def now (world : World ω) : Instant := .ofEpochMillis (world.epoch + world.clock)

def setAlarm (world : World ω) (duration : Nat) : World ω × Alarm :=
  ({ world with nextAlarm := world.nextAlarm + 1 }, ⟨world.clock + duration, world.nextAlarm⟩)

def isDue (world : World ω) (alarm : Alarm) : Bool := alarm.due ≤ world.clock

/-- Whether a run sees an interruption before anything else, if there is one. -/
def heed (world : World ω) (interrupted : Bool) : World ω × Bool :=
  ({ world with glances := if interrupted then world.glances.tail else world.glances },
    interrupted && world.glances.headD false)

@[simp]
theorem heed_false (world : World ω) : world.heed false = (world, false) := rfl

theorem interrupted_of_heed {world : World ω} {interrupted : Bool}
    (heeds : (world.heed interrupted).2 = true) : interrupted = true :=
  (Bool.and_eq_true_iff.mp heeds).1

def callLock (world : World ω) (name : String) : World ω × Ticket :=
  let ticket := world.nextTicket
  ({ world with nextTicket := ticket + 1, locks := world.locks.call name ticket }, ticket)

def noteHanded (world : World ω) (name : String) : World ω :=
  { world with handed := world.handed ++ (world.locks.owner? name).toList }

def releaseLock (world : World ω) (name : String) : World ω :=
  { world with locks := world.locks.release name }.noteHanded name

def giveUpLock (world : World ω) (name : String) (ticket : Ticket) : World ω :=
  let wasOwner := world.locks.isOwner name ticket
  let world := { world with locks := world.locks.giveUp name ticket }
  if wasOwner then world.noteHanded name else world

/-- A call for a lock that is taken back before it looks for the lock. -/
def balkAtLock (world : World ω) (name : String) : World ω :=
  (world.callLock name).1.giveUpLock name (world.callLock name).2

end World

end TestEngine
