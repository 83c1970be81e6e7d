import TestEngine.Proofs.Machine.Performance

/-!
# Locks that a run has taken itself

A run that asks for a lock that it holds already waits for itself. Nobody gives the lock back
meanwhile, so the call is refused: at the very end of its time, or as soon as the run is interrupted
by then. The step that made the call fails then or unwinds, and nothing of its body is visited.
-/

namespace TestEngine

variable {ω α ν : Type}

/-! ### Histories -/

/-- An exchange without its note. -/
def Exchange.bare (exchange : Exchange ν) : Exchange Unit := ⟨exchange.request, exchange.answer, ()⟩

namespace Program.Leads

variable {program middle rest : Program α} {history later : List (Exchange ν)}

end Program.Leads

/-! ### Refusals -/

/-- How a call for a lock is refused that cannot be had: when its time is up, unless the run is
interrupted by then. -/
def LockAnswer.Refuses (timeout : Nat) (span : Span) : LockAnswer → Prop
  | .granted => False
  | .timedOut => span.answered = span.asked + timeout
  | .cancelled => span.interrupted = true ∧ span.answered ≤ span.asked + timeout

/-- If an exchange is a call for a lock that is held, then it is refused. -/
def Exchange.Denies (held : List String) : Exchange Span → Prop
  | ⟨.acquire name timeout, answer, span⟩ => name ∈ held → answer.Refuses timeout span
  | _ => True

/-- Every call for a lock that was held by then has been refused. -/
def Exchange.DenyHeld (history : List (Exchange Span)) : Prop :=
  ∀ earlier exchange later, history = earlier ++ exchange :: later →
    exchange.Denies (guarding.follow [] earlier)

theorem Exchange.DenyHeld.nil : DenyHeld [] := fun _ _ _ split => by simp at split

theorem Exchange.DenyHeld.snoc {history : List (Exchange Span)} {exchange : Exchange Span}
    (denyHeld : DenyHeld history) (denies : exchange.Denies (guarding.follow [] history)) :
    DenyHeld (history ++ [exchange]) := by
  intro earlier inner later split
  rcases List.eq_nil_or_concat later with rfl | ⟨later, last, rfl⟩
  · rcases List.append_inj' split rfl with ⟨rfl, same⟩
    obtain rfl : exchange = inner := by simpa using same
    exact denies
  · have splitLast : history ++ [exchange] = (earlier ++ inner :: later) ++ [last] := by
      simpa using split
    exact denyHeld _ _ _ (List.append_inj' splitLast rfl).1

section Calls

variable {registry : Registry ω} {session : Session} {world : World ω} {name : String}
  {timeout : Nat}

end Calls

/-! ### Performances -/

section Performances

variable {registry : Registry ω} {program : Program α} {session : Session} {world : World ω}

/-- What a program that gives its locks back has gone through tells which guards it holds. -/
theorem Program.Balanced.exists_holds (balanced : program.Balanced)
    (issued : world.locks.Issued world.nextTicket) {now : Situation ω α}
    {history : List (Exchange ν)}
    (comes : Situation.ComesTo registry ⟨session, world, .ready program⟩ now)
    (leads : program.Leads history now.stage.remaining) :
    ∃ guards trace, Situation.Holds world.locks world.nextTicket guards trace now ∧
      guards.map Prod.fst = guarding.follow [] history := by
  rcases comes with ⟨trace, course⟩
  rcases (Situation.Holds.start session balanced issued).solo course issued.orderly with
    ⟨guards, holds⟩
  exact ⟨guards, trace, holds, holds.obeys.held_unique (leads.obeys (balanced []))⟩

end Performances

/-! ### Steps that lock what is locked -/

/-- What has become of the visit of a step that locks a name which its run has locked already, by
what the run has gone through since it reached the step. If the call was refused, then the visit has
made no other request but to notice an interruption, and it is over. -/
inductive Visit.Denied (name : String) (timeout : Nat) (body : Visit Flow) (frame : Frame)
    (reached : Nat) (performance : Performance ω α) : List (Exchange Span) → Prop
  | waits {ticket : Ticket} {alarm : Alarm} {next : LockAnswer → Program α}
      (waits : performance.situation.stage =
        .waiting (.line ticket alarm : Wait ω (.acquire name timeout)) next)
      (due : alarm.due = reached + timeout)
      (inTime : performance.situation.world.clock ≤ alarm.due) :
      Denied name timeout body frame reached performance []
  | timedOut {span : Span} {rest : List (Exchange Span)} (asked : span.asked = reached)
      (inTime : span.answered = reached + timeout)
      (fails : (lock name timeout body).Yields frame [⟨.acquire name timeout, .timedOut, span⟩]
        (.error (.failed (lockTimeoutError name timeout))) frame) :
      Denied name timeout body frame reached performance
        (⟨.acquire name timeout, .timedOut, span⟩ :: rest)
  | interrupted {span : Span} {rest : List (Exchange Span)} (asked : span.asked = reached)
      (interrupted : span.interrupted = true) (inTime : span.answered ≤ reached + timeout)
      (unwinds : ∀ (goesOn : Bool) (checked : Span), (lock name timeout body).Yields frame
        [⟨.acquire name timeout, .cancelled, span⟩, ⟨.checkpoint, goesOn, checked⟩]
        (.error .interrupted) frame) :
      Denied name timeout body frame reached performance
        (⟨.acquire name timeout, .cancelled, span⟩ :: rest)

/-- What has been asked and answered stays so. -/
theorem Performance.grows_law (registry : Registry ω) (history : List (Exchange Span)) :
    PerformanceLaw registry (fun _ _ later (_ : Program α) => history <+: later)
      fun performance => history <+: performance.history := by
  constructor
  case start => exact fun kept => kept
  case finish => exact fun kept => kept
  case ask =>
    intro session world request next later kept
    rw [Carried.Performs]
    split
    · exact kept.trans (List.prefix_append _ _)
    · exact kept
  case resume =>
    intro session world request wait next since later kept _
    rw [Carried.Performs]
    split
    · exact kept.trans (List.prefix_append _ _)
    · exact kept
  case signal => exact fun kept _ => kept
  case pass => exact fun kept _ => kept

/-- A call that is waited for is answered once its time is up. -/
theorem Performance.answers_line (registry : Registry ω) {performance : Performance ω α}
    {name : String} {timeout : Nat} {ticket : Ticket} {alarm : Alarm}
    {next : LockAnswer → Program α}
    (waits : performance.situation.stage =
      .waiting (.line ticket alarm : Wait ω (.acquire name timeout)) next)
    (inTime : performance.situation.world.clock ≤ alarm.due) :
    ∃ answer span rest, (performance.play registry [.pass alarm.due, .poll]).history =
      performance.history ++ ⟨.acquire name timeout, answer, span⟩ :: rest := by
  rcases performance with ⟨⟨session, world, stage⟩, since, history⟩
  let wait : Wait ω (.acquire name timeout) := .line ticket alarm
  obtain rfl : stage = .waiting wait next := waits
  let situation : Situation ω α := ⟨session, world, .waiting wait next⟩
  have atEnd : situation.clockAfter alarm.due = alarm.due := by
    change max world.clock (min (world.clock + alarm.due) alarm.due) = alarm.due
    rw [Nat.min_eq_right (Nat.le_add_left _ _), Nat.max_eq_right inTime]
  let later : World ω := { world with clock := situation.clockAfter alarm.due }
  have awake : wait.isAwake session later = true := by
    have isDue : later.isDue alarm = true := decide_eq_true (Nat.le_of_eq atEnd.symm)
    simp [wait, Wait.isAwake, isDue]
  have answers : ∃ answer, (wait.resume session later).outcome = .answered answer := by
    simp only [wait, Wait.resume, Session.leaveLine]
    split
    · exact ⟨_, rfl⟩
    · split <;> exact ⟨_, rfl⟩
  rcases answers with ⟨answer, answered⟩
  change ∃ answer span rest, (Performance.poll registry ⟨⟨session, later, .waiting wait next⟩,
    since, history⟩).history = _
  simp only [Performance.poll, awake, if_true, answered]
  let span : Span := ⟨since, later.clock, session.control.interrupted⟩
  let exchange : Exchange Span := ⟨.acquire name timeout, answer, span⟩
  have grows : history ++ [exchange] <+: ((next answer).perform registry
      (wait.resume session later).session (wait.resume session later).world
        (history ++ [exchange])).history :=
    (grows_law registry _).perform (List.prefix_refl _)
  rcases grows with ⟨rest, grown⟩
  rw [← List.append_cons] at grown
  exact ⟨answer, span, rest, grown.symm⟩

/-- Whoever is denied a lock is told so at the end of its time at the latest, if it is polled. -/
theorem Visit.Denied.comes {performance : Performance ω α} {name : String} {timeout : Nat}
    {body : Visit Flow} {frame : Frame} {reached : Nat} {before later : List (Exchange Span)}
    (denied : Denied name timeout body frame reached performance later)
    (split : performance.history = before ++ later) (registry : Registry ω) :
    ∃ answer span rest, (performance.play registry [.pass (reached + timeout), .poll]).history =
      before ++ ⟨.acquire name timeout, answer, span⟩ :: rest := by
  have grows : performance.history <+:
      (performance.play registry [.pass (reached + timeout), .poll]).history :=
    (Performance.grows_law registry _).play (List.prefix_refl _) _
  rw [split] at grows
  cases denied with
  | waits waits due inTime =>
      rw [← due, ← List.append_nil before, ← split]
      exact performance.answers_line registry waits inTime
  | timedOut | interrupted =>
      rcases grows with ⟨further, grown⟩
      rw [List.append_assoc, List.cons_append] at grown
      exact ⟨_, _, _, grown.symm⟩

end TestEngine
