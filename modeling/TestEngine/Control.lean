import TestEngine.Result.Basic
import TestEngine.Text.Quoted

/-!
# Control of a run

A client pauses, resumes and interrupts a run by setting flags, and the run looks at them at its
checkpoints. A run that is to pause suspends itself until the pause is lifted or it is interrupted.
Work that has to be done when an interruption is first noticed is registered as a *hook*.

Every write of the pause flag counts as news for a sleeping run, also one that does not change it.
-/

namespace TestEngine

open Calendar

/-- The flags and the status of a run, with hooks of type `η`. -/
structure Control (η : Type) where
  status : JobStatus
  paused : Bool
  writes : Nat
  interrupted : Bool
  startedAt : Option Instant
  stoppedAt : Option Instant
  interaction : Option Interaction
  hooks : List η

namespace Control

variable {η : Type}

def initial : Control η := ⟨.initialized, false, 0, false, none, none, none, []⟩

instance : Inhabited (Control η) := ⟨initial⟩

def writePaused (control : Control η) (paused : Bool) : Control η :=
  { control with paused, writes := control.writes + 1 }

/-! ### Requests of the client -/

/-- Requests a pause, unless the run is over. -/
def pause (control : Control η) : Control η :=
  if control.status.isTerminal then control else control.writePaused true

/-- Lifts a pause. A run that was paused counts as running from now on. -/
def resume (control : Control η) : Control η :=
  let control := control.writePaused false
  if control.status = .paused then { control with status := .running } else control

/-- Requests the end of the run, unless it is over. -/
def interrupt (control : Control η) : Control η :=
  if control.status.isTerminal then control else { control with interrupted := true }

def interact (control : Control η) (interaction : Interaction) : Control η :=
  { control with interaction := some interaction }.resume

/-! ### Steps of the run -/

/-- Notices an interruption: the control without its hooks, and the hooks to carry out. -/
def notice (control : Control η) : Control η × List η :=
  if control.interrupted then ({ control with hooks := [] }, control.hooks) else (control, [])

def park (control : Control η) : Control η :=
  if control.status = .running then { control with status := .paused } else control

def canWake (control : Control η) : Bool := !control.paused || control.interrupted

def wake (control : Control η) : Control η :=
  if control.status = .paused then { control with status := .running } else control

/-- Gets ready to wait for input: what came before does not count. -/
def beginInteraction (control : Control η) : Control η :=
  { control with interaction := none }.writePaused true

def takeInteraction (control : Control η) : Control η × Option Interaction :=
  ({ control with interaction := none }, control.interaction)

/-- Registers work for the moment when an interruption is noticed. -/
def onAbort (control : Control η) (hook : η) : Control η :=
  { control with hooks := control.hooks ++ [hook] }

/-! ### The life of the run -/

/-- Starts a run that has not been started; `none` if it has. -/
def start? (control : Control η) (now : Instant) : Option (Control η) :=
  if control.status = .initialized then
    some { control with status := .running, startedAt := some now }
  else none

/-- Ends a run with a terminal status; `none` if it has ended before. -/
def stop? (control : Control η) (status : JobStatus) (now : Instant) : Option (Control η) :=
  if control.status.isTerminal then none
  else some
    { control.writePaused false with status, stoppedAt := some now, hooks := [] }

def described (control : Control η) : String :=
  Text.described "JobControl"
    [("status", control.status.title), ("paused", Text.boolWord control.paused),
      ("interrupted", Text.boolWord control.interrupted)]

end Control

end TestEngine
