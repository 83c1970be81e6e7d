import TestEngine.Proofs.Lock.View

/-!
# Fairness of locks

Whatever calls are made, polled, cancelled and dropped, in whatever order: no lock has two live
guards, no lock is left free while somebody waits for it, the calls on a name obtain its lock in the
order in which they were made, each of them ends in its time and is refused for a reason, and the
calls on one name are not influenced by those on other names.
-/

namespace TestEngine

variable {ω : Type}

/-- A call that was refused was at the end of its time, or its token had been cancelled. -/
def LockCall.Excused (call : LockCall) (cancelled : Bool) : Prop :=
  ∀ answer moment, call.fate = .refused answer moment →
    answer = .timedOut ∧ moment = call.start + call.timeout ∨ answer = .cancelled ∧ cancelled = true

namespace Locking

/-- What can be relied on after some events. -/
structure Fair (first : Locking ω) (events : List LockEvent)
    (last : Locking ω) : Prop where
  /-- No lock has two live guards. -/
  exclusive : ∀ (name : String) (place other : Nat) (call rival : LockCall),
    (last.calls name)[place]? = some call → call.fate.isHolding →
      (last.calls name)[other]? = some rival → rival.fate.isHolding → place = other
  /-- When nothing more can happen, a call waits only for a live guard. -/
  served : last.Settled → ∀ name, ∀ call ∈ last.calls name, call.fate.isWaiting →
    ∃ holder ∈ last.calls name, holder.fate.isHolding
  /-- The calls that obtained a lock did so in the order in which they were made. -/
  inOrder : ∀ name, (last.grants name).Pairwise (· < ·)
  granted : ∀ name place, place ∈ last.grants name ↔
    ∃ call, (last.calls name)[place]? = some call ∧ call.fate.isGranted
  /-- No call obtains a lock while an earlier one waits for it. -/
  noOvertaking : ∀ (name : String) (place later : Nat) (waiter winner : LockCall), place < later →
    (last.calls name)[place]? = some waiter → waiter.fate.isWaiting →
      (last.calls name)[later]? = some winner → ¬winner.fate.isGranted
  /-- No call waits longer than its time, and none has ended later. -/
  inTime : ∀ name, ∀ call ∈ last.calls name,
    (call.fate.isWaiting → last.world.clock ≤ call.start + call.timeout) ∧
      ∀ moment, call.fate.endedAt? = some moment → moment ≤ call.start + call.timeout
  /-- A call that has not obtained the lock was refused because its time was over or because it was
  cancelled. -/
  refused : ∀ name, ∀ call ∈ last.calls name, call.Excused (last.isCancelled call.token)
  /-- When nothing more can happen, no call waits whose time is over. -/
  timedOut : last.Settled → ∀ name, ∀ call ∈ last.calls name, call.fate.isWaiting →
    last.world.clock < call.start + call.timeout
  /-- A call that can go on is answered by its next poll. -/
  answered : ∀ name before call after, last.calls name = before ++ call :: after →
    last.isAwake name call → ∃ next fate, last.Step (.poll name before.length) next ∧
      next.calls name = before ++ { call with fate } :: after ∧ fate.endedAt?.isSome
  /-- The first call in line for a lock that is free can go on, and its next poll grants it. -/
  next : ∀ name before call after, last.calls name = before ++ call :: after →
    call.fate.isWaiting → (∀ holder ∈ last.calls name, ¬holder.fate.isHolding) →
      (∀ earlier ∈ before, ¬earlier.fate.isWaiting) →
        last.isAwake name call ∧ ∃ next, last.Step (.poll name before.length) next ∧
          next.calls name = before ++ { call with fate := .holding last.world.clock } :: after
  /-- What becomes of the calls on a name depends on the events that concern it only. -/
  apart : ∀ name other otherEvents, History first otherEvents other →
    otherEvents.filter (LockEvent.concerns name) = events.filter (LockEvent.concerns name) →
      other.view name = last.view name
  /-- What becomes of the calls on a name would have become of them without any others. -/
  alone : ∀ name, ∃ alone,
    History first (events.filter (LockEvent.concerns name)) alone ∧
      alone.view name = last.view name ∧ ∀ other, other ≠ name → alone.calls other = []

variable {locking first last : Locking ω} {event : LockEvent} {events : List LockEvent}
  {name : String} {place later : Nat} {before after : List LockCall} {call : LockCall}

theorem exists_first_active {calls : List LockCall} (callMem : call ∈ calls)
    (active : call.fate.isActive) :
    ∃ before first after, calls = before ++ first :: after ∧ first.fate.isActive ∧
      ∀ earlier ∈ before, ¬earlier.fate.isActive := by
  cases found : calls.find? fun call => call.fate.isActive with
  | none => exact absurd active (List.find?_eq_none.mp found call callMem)
  | some first =>
      rcases List.find?_eq_some_iff_append.mp found with ⟨isFirst, before, after, rfl, noneBefore⟩
      exact ⟨before, first, after, rfl, isFirst, fun earlier earlierMem => by
        simpa using noneBefore earlier earlierMem⟩

namespace Ordered

/-- Of two calls on a name the later one has not obtained the lock if the earlier one is active. -/
theorem not_isGranted_of_lt (ordered : locking.Ordered) (isLater : place < later)
    {waiter winner : LockCall} (hasWaiter : (locking.calls name)[place]? = some waiter)
    (active : waiter.fate.isActive) (hasWinner : (locking.calls name)[later]? = some winner) :
    ¬winner.fate.isGranted := by
  intro granted
  rcases List.getElem?_eq_some_iff.mp hasWaiter with ⟨placeLt, isWaiter⟩
  rcases List.getElem?_eq_some_iff.mp hasWinner with ⟨laterLt, isWinner⟩
  have inTurn := List.pairwise_iff_getElem.mp (ordered.inTurn name) place later placeLt laterLt
    isLater
  rw [isWaiter, isWinner] at inTurn
  exact inTurn granted active

theorem exclusive (ordered : locking.Ordered) {other : Nat} {rival : LockCall}
    (hasCall : (locking.calls name)[place]? = some call) (holds : call.fate.isHolding)
    (hasRival : (locking.calls name)[other]? = some rival) (rivalHolds : rival.fate.isHolding) :
    place = other := by
  rcases Nat.lt_trichotomy place other with placeLt | same | otherLt
  · exact absurd (LockFate.isGranted_of_isHolding rivalHolds)
      (ordered.not_isGranted_of_lt placeLt hasCall (LockFate.isActive_of_isHolding holds) hasRival)
  · exact same
  · exact absurd (LockFate.isGranted_of_isHolding holds)
      (ordered.not_isGranted_of_lt otherLt hasRival (LockFate.isActive_of_isHolding rivalHolds)
        hasCall)

/-- The first active call on a name that is waited for has a live guard, or it is awake. -/
theorem served (ordered : locking.Ordered) (settled : locking.Settled)
    (callMem : call ∈ locking.calls name) (waits : call.fate.isWaiting) :
    ∃ holder ∈ locking.calls name, holder.fate.isHolding := by
  rcases exists_first_active callMem (LockFate.isActive_of_isWaiting waits) with
    ⟨before, holder, after, has, active, noneBefore⟩
  refine ⟨holder, by simp [has], ?_⟩
  cases fate : holder.fate with
  | holding since => rfl
  | waiting alarm =>
      have awake := (ordered.isAwake_iff has fate).mpr
        (.inl (LockCall.standing_eq_nil_iff.mpr noneBefore))
      exact absurd awake (settled name holder (by simp [has]))
  | dropped since => simp [fate, LockFate.isActive] at active
  | refused answer moment => simp [fate, LockFate.isActive] at active

theorem timedOut (ordered : locking.Ordered) (settled : locking.Settled)
    (callMem : call ∈ locking.calls name) (waits : call.fate.isWaiting) :
    locking.world.clock < call.start + call.timeout := by
  rcases LockFate.exists_alarm waits with ⟨alarm, waits⟩
  rcases List.append_of_mem callMem with ⟨before, after, has⟩
  have notAwake := settled name call callMem
  rw [ordered.isAwake_iff has waits, not_or, not_or, World.isDue, decide_eq_true_eq] at notAwake
  rw [← ((ordered.timely name call callMem).waiting alarm waits).1]
  exact Nat.lt_of_not_le notAwake.2.1

theorem answered (ordered : locking.Ordered)
    (has : locking.calls name = before ++ call :: after) (awake : locking.isAwake name call) :
    ∃ next fate, locking.Step (.poll name before.length) next ∧
      next.calls name = before ++ { call with fate } :: after ∧ fate.endedAt?.isSome := by
  rcases exists_waiting_of_isAwake awake with ⟨alarm, waits⟩
  rcases ordered.pollOn_eq has waits with ⟨world, entered, -⟩
  refine ⟨_, locking.polledFate before alarm, .poll has waits awake, ?_, ?_⟩
  · rw [entered]
    exact Function.update_self ..
  · rcases locking.polledFate_cases before alarm with ⟨-, polled⟩ | ⟨answer, polled⟩
    · rw [polled]
      rfl
    · rw [polled]
      rfl

theorem next (ordered : locking.Ordered) (has : locking.calls name = before ++ call :: after)
    (waits : call.fate.isWaiting) (free : ∀ holder ∈ locking.calls name, ¬holder.fate.isHolding)
    (isFirst : ∀ earlier ∈ before, ¬earlier.fate.isWaiting) :
    locking.isAwake name call ∧ ∃ next, locking.Step (.poll name before.length) next ∧
      next.calls name =
        before ++ { call with fate := .holding locking.world.clock } :: after := by
  rcases LockFate.exists_alarm waits with ⟨alarm, waits⟩
  have nobody : LockCall.standing before = [] := by
    refine LockCall.standing_eq_nil_iff.mpr fun earlier earlierMem active => ?_
    rcases LockFate.isWaiting_or_isHolding active with waits | holds
    · exact isFirst earlier earlierMem waits
    · exact free earlier (has ▸ List.mem_append_left _ earlierMem) holds
  have awake := (ordered.isAwake_iff has waits).mpr (.inl nobody)
  rcases ordered.pollOn_eq has waits with ⟨world, entered, -⟩
  refine ⟨awake, _, .poll has waits awake, ?_⟩
  rw [entered, polledFate, if_pos nobody]
  exact Function.update_self ..

end Ordered

/-! ### Refusals -/

/-- A call that is made is refused for a reason. -/
theorem askedFate_excused (locking : Locking ω) (name : String) (timeout : Nat)
    (token : Option Nat) : LockCall.Excused ⟨locking.world.nextTicket, timeout, token,
      locking.world.clock, locking.askedFate name timeout token⟩ (locking.isCancelled token) := by
  intro answer moment refused
  simp only [askedFate] at refused
  split at refused
  · cases refused
  · split at refused
    · rename_i noTime
      cases refused
      rw [noTime]
      exact .inl ⟨rfl, rfl⟩
    · split at refused
      · rename_i cancelled
        cases refused
        exact .inr ⟨rfl, cancelled⟩
      · cases refused

/-- A call that waits and is awake is refused for a reason when it is polled. -/
theorem Ordered.polledFate_excused (ordered : locking.Ordered)
    (has : locking.calls name = before ++ call :: after) {alarm : Alarm}
    (waits : call.fate = .waiting alarm) (awake : locking.isAwake name call) :
    LockCall.Excused { call with fate := locking.polledFate before alarm }
      (locking.isCancelled call.token) := by
  intro answer moment refused
  rw [ordered.isAwake_iff has waits] at awake
  simp only [polledFate] at refused
  split at refused
  · cases refused
  · rename_i awaited
    split at refused
    · rename_i isDue
      cases refused
      rcases (ordered.timely name call (by simp [has])).waiting alarm waits with ⟨due, inTime⟩
      exact .inl ⟨rfl, due ▸ Nat.le_antisymm inTime (of_decide_eq_true isDue)⟩
    · rename_i notDue
      cases refused
      exact .inr ⟨rfl, (awake.resolve_left awaited).resolve_left notDue⟩

theorem isCancelled_cancel {other : Option Nat} (token : Nat)
    (cancelled : locking.isCancelled other = true) :
    isCancelled { locking with cancelled := token :: locking.cancelled } other = true := by
  cases other with
  | none => exact cancelled
  | some other => exact decide_eq_true (List.mem_cons_of_mem _ (of_decide_eq_true cancelled))

/-- No event refuses a call without a reason, and the reasons stay. -/
theorem Step.excused {next : Locking ω} (step : locking.Step event next)
    (ordered : locking.Ordered)
    (excused : ∀ name, ∀ call ∈ locking.calls name, call.Excused (locking.isCancelled call.token)) :
    ∀ name, ∀ call ∈ next.calls name, call.Excused (next.isCancelled call.token) := by
  have entered {world : World ω} {name : String} {before after : List LockCall} {call : LockCall}
      (others : ∀ other ∈ before ++ after, other ∈ locking.calls name)
      (isExcused : call.Excused (locking.isCancelled call.token)) :
      ∀ name', ∀ call' ∈ (locking.enter world name before call after).calls name',
        call'.Excused (locking.isCancelled call'.token) := by
    refine (Function.forall_update_iff _ fun _ (calls : List LockCall) =>
      ∀ other ∈ calls, other.Excused (locking.isCancelled other.token)).mpr
      ⟨fun other otherMem => ?_, fun name' _ => excused name'⟩
    rcases List.mem_append.mp otherMem with isBefore | isCallOrAfter
    · exact excused name other (others other (List.mem_append_left _ isBefore))
    · rcases List.mem_cons.mp isCallOrAfter with rfl | isAfter
      · exact isExcused
      · exact excused name other (others other (List.mem_append_right _ isAfter))
  have without {name : String} {before after : List LockCall} {call : LockCall}
      (has : locking.calls name = before ++ call :: after) :
      ∀ other ∈ before ++ after, other ∈ locking.calls name := by
    intro other otherMem
    rw [has, List.mem_append, List.mem_cons]
    exact (List.mem_append.mp otherMem).imp id .inr
  cases step with
  | call name timeout token =>
      rcases ordered.callOn_eq name timeout token with ⟨world, called, -⟩
      rw [called]
      exact entered (by simp) (locking.askedFate_excused name timeout token)
  | balk name timeout cancelled =>
      refine entered (by simp) fun answer moment refused => ?_
      cases refused
      exact .inr ⟨rfl, cancelled⟩
  | poll has waits awake =>
      rcases ordered.pollOn_eq has waits with ⟨world, polled, -⟩
      rw [polled]
      exact entered (without has) (ordered.polledFate_excused has waits awake)
  | abandon has waits cancelled =>
      refine entered (without has) fun answer moment refused => ?_
      cases refused
      exact .inr ⟨rfl, cancelled⟩
  | drop has holds =>
      refine entered (without has) fun answer moment refused => ?_
      cases refused
  | cancel token =>
      intro name call callMem answer moment refused
      exact (excused name call callMem answer moment refused).imp id
        (And.imp id (isCancelled_cancel token))
  | tick settled later inTime => exact excused
  | elsewhere sameLocks sameClock sameTickets => exact excused

theorem History.excused (history : History first events last) (ordered : first.Ordered)
    (noCalls : ∀ name, first.calls name = []) :
    ∀ name, ∀ call ∈ last.calls name, call.Excused (last.isCancelled call.token) := by
  induction history with
  | start =>
      intro name call callMem
      rw [noCalls] at callMem
      exact nomatch callMem
  | step history step ih => exact step.excused (history.ordered ordered) ih

/-- Locks are fair from the beginning on, whatever happens. -/
theorem History.fair {world : World ω} (noLocks : world.locks = .empty)
    (history : History (initial world) events last) :
    Fair (initial world) events last := by
  have ordered := history.ordered (ordered_initial noLocks)
  constructor
  case exclusive =>
    exact fun name place other call rival hasCall holds hasRival rivalHolds =>
      ordered.exclusive hasCall holds hasRival rivalHolds
  case served => exact fun settled name call callMem waits => ordered.served settled callMem waits
  case inOrder => exact ordered.grants
  case granted => exact ordered.granted
  case noOvertaking =>
    exact fun name place later waiter winner isLater hasWaiter waits hasWinner =>
      ordered.not_isGranted_of_lt isLater hasWaiter (LockFate.isActive_of_isWaiting waits) hasWinner
  case inTime =>
    intro name call callMem
    have timely := ordered.timely name call callMem
    refine ⟨fun waits => ?_, fun moment ended => (timely.ended moment ended).2⟩
    rcases LockFate.exists_alarm waits with ⟨alarm, waits⟩
    rcases timely.waiting alarm waits with ⟨due, inTime⟩
    exact due ▸ inTime
  case refused => exact history.excused (ordered_initial noLocks) fun _ => rfl
  case timedOut =>
    exact fun settled name call callMem waits => ordered.timedOut settled callMem waits
  case answered =>
    exact fun name before call after has awake => ordered.answered has awake
  case next =>
    exact fun name before call after has waits free isFirst => ordered.next has waits free isFirst
  case apart =>
    intro name other otherEvents otherHistory sameEvents
    rw [otherHistory.view (ordered_initial noLocks), sameEvents,
      history.view (ordered_initial noLocks)]
  case alone =>
    exact fun name => history.exists_alone (ordered_initial noLocks) (fun _ => rfl) name

/-! ### Two calls -/

/-- Nobody has called for a lock. -/
def sample : Locking Unit := initial (.initial 0 .empty ())

/-- Two calls on a name, of which the first one drops its guard. -/
theorem sample_fair :
    ∃ last, History sample
      [.call "db" 5 none, .call "db" 5 none, .drop "db" 0, .poll "db" 1] last ∧
      last.grants "db" = [0, 1] ∧
      Fair sample
        [.call "db" 5 none, .call "db" 5 none, .drop "db" 0, .poll "db" 1] last := by
  let two := (sample.callOn "db" 5 none).callOn "db" 5 none
  let call : LockCall := ⟨0, 5, none, 0, .holding 0⟩
  let next : LockCall := ⟨1, 5, none, 0, .waiting ⟨5, 0⟩⟩
  let dropped := two.dropOn "db" [] call 0 [next]
  have called : History sample [.call "db" 5 none, .call "db" 5 none] two :=
    (History.start.step (.call "db" 5 none)).step (.call "db" 5 none)
  have drops : two.Step (.drop "db" 0) dropped :=
    .drop (show two.calls "db" = [] ++ call :: [next] from rfl) rfl
  have polls : dropped.Step (.poll "db" 1) (dropped.pollOn "db" [_] next ⟨5, 0⟩ []) :=
    .poll (show dropped.calls "db" = [{ call with fate := .dropped 0 }] ++ next :: [] from rfl) rfl
      (by decide +kernel)
  have history := (called.step drops).step polls
  exact ⟨_, history, by decide +kernel, History.fair rfl history⟩

end Locking

end TestEngine
