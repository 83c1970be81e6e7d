import TestEngine.Proofs.Lock.Invariant

/-!
# Steps of locks

What a call for a lock is answered, and when a call that waits can go on, can be told from the line
of its name. With that each step of a locking keeps the invariant.
-/

namespace TestEngine

variable {ω : Type}

/-! ### Worlds -/

namespace World

theorem giveUpLock_locks (world : World ω) (name : String) (ticket : Ticket) :
    (world.giveUpLock name ticket).locks = world.locks.giveUp name ticket := by
  rw [giveUpLock]
  split <;> rfl

theorem giveUpLock_clock (world : World ω) (name : String) (ticket : Ticket) :
    (world.giveUpLock name ticket).clock = world.clock := by
  rw [giveUpLock]
  split <;> rfl

theorem giveUpLock_nextTicket (world : World ω) (name : String) (ticket : Ticket) :
    (world.giveUpLock name ticket).nextTicket = world.nextTicket := by
  rw [giveUpLock]
  split <;> rfl

end World

namespace Locking

variable {locking next : Locking ω} {name : String} {timeout : Nat}
  {token : Option Nat} {before after : List LockCall} {call : LockCall} {alarm : Alarm}

/-- The fate of a call that is made now. -/
def askedFate (locking : Locking ω) (name : String) (timeout : Nat) (token : Option Nat) :
    LockFate :=
  if LockCall.standing (locking.calls name) = [] then .holding locking.world.clock
  else if timeout = 0 then .refused .timedOut locking.world.clock
  else if locking.isCancelled token then .refused .cancelled locking.world.clock
  else .waiting ⟨locking.world.clock + timeout, locking.world.nextAlarm⟩

/-- The fate of a call that waits and is polled now. -/
def polledFate (locking : Locking ω) (before : List LockCall) (alarm : Alarm) : LockFate :=
  if LockCall.standing before = [] then .holding locking.world.clock
  else if locking.world.isDue alarm then .refused .timedOut locking.world.clock
  else .refused .cancelled locking.world.clock

theorem askedFate_cases (locking : Locking ω) (name : String) (timeout : Nat)
    (token : Option Nat) :
    (LockCall.standing (locking.calls name) = [] ∧
        locking.askedFate name timeout token = .holding locking.world.clock) ∨
      (∃ answer, locking.askedFate name timeout token = .refused answer locking.world.clock) ∨
      locking.askedFate name timeout token =
        .waiting ⟨locking.world.clock + timeout, locking.world.nextAlarm⟩ := by
  rw [askedFate]
  split
  · rename_i free
    exact .inl ⟨free, rfl⟩
  · split
    · exact .inr (.inl ⟨_, rfl⟩)
    · split
      · exact .inr (.inl ⟨_, rfl⟩)
      · exact .inr (.inr rfl)

theorem polledFate_cases (locking : Locking ω) (before : List LockCall) (alarm : Alarm) :
    (LockCall.standing before = [] ∧
        locking.polledFate before alarm = .holding locking.world.clock) ∨
      ∃ answer, locking.polledFate before alarm = .refused answer locking.world.clock := by
  rw [polledFate]
  split
  · rename_i free
    exact .inl ⟨free, rfl⟩
  · split <;> exact .inr ⟨_, rfl⟩

/-- A world in which a name has another line. -/
structure Relines (locking : Locking ω) (world : World ω) (name : String) (line : List Ticket) :
    Prop where
  orderly : world.locks.Orderly
  line : world.locks.line = Function.update locking.world.locks.line name line
  clock : world.clock = locking.world.clock

namespace Ordered

theorem distinct_line (ordered : locking.Ordered) (name : String) :
    (locking.world.locks.line name).Nodup := by
  rw [ordered.line]
  exact (ordered.distinct name).sublist (LockCall.standing_sublist _)

theorem fresh_line (ordered : locking.Ordered) (name : String) :
    locking.world.nextTicket ∉ locking.world.locks.line name := by
  intro isOld
  rw [ordered.line] at isOld
  rcases List.mem_map.mp ((LockCall.standing_sublist _).subset isOld) with ⟨call, callMem, same⟩
  exact Nat.ne_of_lt (ordered.fresh name call callMem) same

/-- A call is first in line. -/
theorem callLock_relines (ordered : locking.Ordered) (name : String) :
    locking.Relines (locking.world.callLock name).1 name
      (LockCall.standing (locking.calls name) ++ [locking.world.nextTicket]) where
  orderly := ordered.orderly.call name _
  line := by
    rw [← ordered.line]
    exact LockTable.line_call ordered.orderly name _
  clock := rfl

/-- A call that gives up at once leaves the line as it was. -/
theorem balk_relines (ordered : locking.Ordered) (name : String) :
    locking.Relines
      ((locking.world.callLock name).1.giveUpLock name locking.world.nextTicket) name
      (LockCall.standing (locking.calls name)) where
  orderly := by
    rw [World.giveUpLock_locks]
    exact (ordered.orderly.call name _).giveUp name _
  line := by
    have called := ordered.callLock_relines name
    have calledLine : (locking.world.callLock name).1.locks.line name =
        LockCall.standing (locking.calls name) ++ [locking.world.nextTicket] := by
      rw [called.line, Function.update_self]
    have fresh := ordered.fresh_line name
    have distinct := ordered.distinct_line name
    rw [ordered.line] at fresh distinct
    have distinctThen : ((locking.world.callLock name).1.locks.line name).Nodup := by
      rw [calledLine, List.nodup_append]
      refine ⟨distinct, List.nodup_cons.mpr ⟨List.not_mem_nil, List.nodup_nil⟩, ?_⟩
      intro ticket ticketMem new isNew
      rw [List.mem_singleton.mp isNew]
      exact fun same => fresh (same ▸ ticketMem)
    rw [World.giveUpLock_locks, LockTable.line_giveUp called.orderly distinctThen, calledLine,
      called.line, Function.update_idem, List.filter_append, List.filter_cons_of_neg (by simp),
      List.filter_nil, List.append_nil, List.filter_eq_self.mpr]
    exact fun ticket ticketMem => decide_eq_true fun same => fresh (same ▸ ticketMem)
  clock := World.giveUpLock_clock ..

theorem giveUpLock_relines (ordered : locking.Ordered)
    (has : locking.calls name = before ++ call :: after) {fate : LockFate}
    (isOver : fate.isActive = false) :
    locking.Relines (locking.world.giveUpLock name call.ticket) name
      (LockCall.standing (before ++ { call with fate } :: after)) where
  orderly := by
    rw [World.giveUpLock_locks]
    exact ordered.orderly.giveUp name _
  line := by
    have distinct := ordered.distinct name
    rw [World.giveUpLock_locks, LockTable.line_giveUp ordered.orderly (ordered.distinct_line name),
      ordered.line, has, LockCall.standing_filter_ticket (has ▸ distinct) isOver]
  clock := World.giveUpLock_clock ..

theorem callLock_isOwner_iff (ordered : locking.Ordered) (name : String) :
    (locking.world.callLock name).1.locks.isOwner name locking.world.nextTicket ↔
      LockCall.standing (locking.calls name) = [] := by
  have called := ordered.callLock_relines name
  have fresh := ordered.fresh_line name
  rw [LockTable.isOwner_iff called.orderly, called.line, Function.update_self]
  rw [ordered.line] at fresh
  cases line : LockCall.standing (locking.calls name) with
  | nil => simp
  | cons first rest =>
      rw [line] at fresh
      simpa using fun same : first = _ => fresh (same ▸ List.mem_cons_self ..)

/-- A call owns its lock when no call before it is active. -/
theorem isOwner_iff (ordered : locking.Ordered)
    (has : locking.calls name = before ++ call :: after) (active : call.fate.isActive) :
    locking.world.locks.isOwner name call.ticket ↔ LockCall.standing before = [] := by
  have distinct := ordered.distinct_line name
  rw [LockTable.isOwner_iff ordered.orderly]
  rw [ordered.line, has, LockCall.standing_append,
    LockCall.standing_cons_of_isActive active] at distinct ⊢
  cases line : LockCall.standing before with
  | nil => simp
  | cons first rest =>
      rw [line, List.cons_append, List.nodup_cons] at distinct
      simpa using fun same : first = _ => distinct.1 (same ▸ by simp)

/-- A live guard belongs to the first call in line. -/
theorem standing_eq_nil_of_isGranted (ordered : locking.Ordered)
    (has : locking.calls name = before ++ call :: after) (granted : call.fate.isGranted) :
    LockCall.standing before = [] := by
  have inTurn := ordered.inTurn name
  rw [has, List.pairwise_append] at inTurn
  exact LockCall.standing_eq_nil_iff.mpr fun earlier earlierMem =>
    inTurn.2.2 earlier earlierMem call (List.mem_cons_self ..) granted

theorem releaseLock_relines (ordered : locking.Ordered)
    (has : locking.calls name = before ++ call :: after) {since : Nat}
    (holds : call.fate = .holding since) :
    locking.Relines (locking.world.releaseLock name) name
      (LockCall.standing (before ++ { call with fate := .dropped since } :: after)) where
  orderly := ordered.orderly.release name
  line := by
    have active : call.fate.isActive := by rw [holds]; rfl
    have first := ordered.standing_eq_nil_of_isGranted has (by rw [holds]; rfl)
    have left : LockCall.standing ({ call with fate := .dropped since } :: after) =
        LockCall.standing after := LockCall.standing_cons_of_not_isActive rfl after
    refine (LockTable.line_release ordered.orderly name).trans ?_
    rw [ordered.line, has, LockCall.standing_append, LockCall.standing_append, first, left,
      LockCall.standing_cons_of_isActive active, List.nil_append, List.nil_append, List.tail_cons]
  clock := rfl

/-! ### Calls and polls -/

theorem callOn_eq (ordered : locking.Ordered) (name : String)
    (timeout : Nat) (token : Option Nat) :
    let call : LockCall := ⟨locking.world.nextTicket, timeout, token, locking.world.clock,
      locking.askedFate name timeout token⟩
    ∃ world, locking.callOn name timeout token =
        locking.enter world name (locking.calls name) call [] ∧
      locking.Relines world name (LockCall.standing (locking.calls name ++ [call])) ∧
        world.nextTicket = locking.world.nextTicket + 1 := by
  have called := ordered.callLock_relines name
  have balked := ordered.balk_relines name
  have isOwner := ordered.callLock_isOwner_iff name
  have ticket : (locking.world.callLock name).2 = locking.world.nextTicket := rfl
  have balkedTicket := World.giveUpLock_nextTicket (locking.world.callLock name).1 name
    locking.world.nextTicket
  have interrupted : (locking.session token).control.interrupted = locking.isCancelled token := rfl
  simp only [callOn, Session.tryLock, ticket, askedFate, interrupted]
  split
  · rename_i owns
    rw [if_pos (isOwner.mp owns), LockCall.standing_concat_of_isActive rfl]
    exact ⟨_, rfl, called, rfl⟩
  · rename_i ownsNot
    rw [if_neg (mt isOwner.mpr ownsNot)]
    split
    · rw [LockCall.standing_concat_of_not_isActive rfl]
      exact ⟨_, rfl, balked, balkedTicket⟩
    · split
      · rw [LockCall.standing_concat_of_not_isActive rfl]
        exact ⟨_, rfl, balked, balkedTicket⟩
      · rw [LockCall.standing_concat_of_isActive rfl]
        exact ⟨_, rfl, ⟨called.orderly, called.line, called.clock⟩, rfl⟩

/-- A call that waits and is awake is answered when it is polled. -/
theorem pollOn_eq (ordered : locking.Ordered)
    (has : locking.calls name = before ++ call :: after) (waits : call.fate = .waiting alarm) :
    let polled : LockCall := { call with fate := locking.polledFate before alarm }
    ∃ world, locking.pollOn name before call alarm after = locking.enter world name before polled
        after ∧
      locking.Relines world name (LockCall.standing (before ++ polled :: after)) ∧
        world.nextTicket = locking.world.nextTicket := by
  have active : call.fate.isActive := by rw [waits]; rfl
  have isOwner := ordered.isOwner_iff has active
  simp only [pollOn, Session.leaveLine, polledFate]
  split
  · rename_i owns
    rw [if_pos (isOwner.mp owns)]
    refine ⟨_, rfl, ⟨ordered.orderly, ?_, rfl⟩, rfl⟩
    rw [LockCall.standing_stays active rfl, ← has, ← ordered.line, Function.update_eq_self]
  · rename_i ownsNot
    rw [if_neg (mt isOwner.mpr ownsNot)]
    split <;> exact ⟨_, rfl, ordered.giveUpLock_relines has rfl,
      World.giveUpLock_nextTicket ..⟩

/-- A call that waits is awake when it owns the lock, when its time is over and when it is
cancelled. -/
theorem isAwake_iff (ordered : locking.Ordered)
    (has : locking.calls name = before ++ call :: after) (waits : call.fate = .waiting alarm) :
    locking.isAwake name call ↔
      LockCall.standing before = [] ∨ locking.world.isDue alarm ∨
        locking.isCancelled call.token := by
  have active : call.fate.isActive := by rw [waits]; rfl
  have interrupted : (locking.session call.token).control.interrupted =
      locking.isCancelled call.token := rfl
  rw [← ordered.isOwner_iff has active]
  simp only [isAwake, waits, Wait.isAwake, interrupted, Bool.or_eq_true, or_assoc]

/-! ### Steps -/

theorem timely_of_ended (ordered : locking.Ordered)
    (has : locking.calls name = before ++ call :: after) (waits : call.fate = .waiting alarm)
    {fate : LockFate} (ended : fate.endedAt? = some locking.world.clock) :
    LockCall.Timely locking.world.clock { call with fate } := by
  have timely := ordered.timely name call (by simp [has])
  rcases timely.waiting alarm waits with ⟨due, inTime⟩
  refine ⟨timely.started, fun _ stillWaits => ?_, fun moment isMoment => ?_⟩
  · obtain rfl : fate = _ := stillWaits
    exact nomatch ended
  · obtain rfl := Option.some.inj (ended.symm.trans isMoment)
    exact ⟨timely.started, due ▸ inTime⟩

theorem timely_of_ends {clock : Nat} {ticket : Ticket} {timeout : Nat} {token : Option Nat}
    {fate : LockFate} (ended : fate.endedAt? = some clock) :
    LockCall.Timely clock ⟨ticket, timeout, token, clock, fate⟩ := by
  refine ⟨Nat.le_refl _, fun _ waits => ?_, fun moment isMoment => ?_⟩
  · obtain rfl : fate = _ := waits
    exact nomatch ended
  · obtain rfl := Option.some.inj (ended.symm.trans isMoment)
    exact ⟨Nat.le_refl _, Nat.le_add_right ..⟩

theorem callOn (ordered : locking.Ordered) (name : String)
    (timeout : Nat) (token : Option Nat) :
    (locking.callOn name timeout token).Ordered := by
  rcases ordered.callOn_eq name timeout token with ⟨world, entered, relines, tickets⟩
  rw [entered]
  refine ordered.append relines.orderly relines.line relines.clock rfl tickets ?_ ?_
  · rcases locking.askedFate_cases name timeout token with ⟨-, asked⟩ | ⟨answer, asked⟩ | asked
    · exact timely_of_ends (by rw [asked]; rfl)
    · exact timely_of_ends (by rw [asked]; rfl)
    · rw [asked]
      refine ⟨Nat.le_refl _, fun alarm waits => ?_, fun moment ended => nomatch ended⟩
      obtain rfl := LockFate.waiting.inj waits
      exact ⟨rfl, Nat.le_add_right ..⟩
  · rcases locking.askedFate_cases name timeout token with ⟨free, asked⟩ | ⟨answer, asked⟩ | asked
    · rw [asked]
      exact fun _ => ⟨rfl, LockCall.standing_eq_nil_iff.mp free⟩
    · rw [asked]
      exact nofun
    · rw [asked]
      exact nofun

theorem balkOn (ordered : locking.Ordered) (name : String) (timeout : Nat) (token : Option Nat) :
    (locking.balkOn name timeout token).Ordered := by
  have balked := ordered.balk_relines name
  refine ordered.append balked.orderly (balked.line.trans ?_) balked.clock rfl
    (World.giveUpLock_nextTicket ..) (timely_of_ends rfl) nofun
  rw [LockCall.standing_concat_of_not_isActive rfl]

theorem pollOn (ordered : locking.Ordered) (has : locking.calls name = before ++ call :: after)
    (waits : call.fate = .waiting alarm) :
    (locking.pollOn name before call alarm after).Ordered := by
  rcases ordered.pollOn_eq has waits with ⟨world, entered, relines, tickets⟩
  have active : call.fate.isActive := by rw [waits]; rfl
  have notGranted : ¬call.fate.isGranted := by rw [waits]; exact nofun
  rw [entered]
  rcases locking.polledFate_cases before alarm with ⟨free, polled⟩ | ⟨answer, polled⟩
  all_goals
    rw [polled] at relines ⊢
    refine ordered.replace relines.orderly has active relines.line relines.clock tickets
      (ordered.timely_of_ended has waits rfl) ?_ ?_ ?_
  · simp [LockFate.isGranted, LockFate.isHolding]
  · exact fun _ => notGranted
  · exact fun _ => LockCall.standing_eq_nil_iff.mp free
  · simp [waits, LockFate.isGranted, LockFate.isHolding]
  · rintro ⟨⟩
  · rintro ⟨⟩

theorem abandonOn (ordered : locking.Ordered) (has : locking.calls name = before ++ call :: after)
    (waits : call.fate = .waiting alarm) : (locking.abandonOn name before call after).Ordered := by
  have active : call.fate.isActive := by rw [waits]; rfl
  have relines := ordered.giveUpLock_relines has
    (show (LockFate.refused .cancelled locking.world.clock).isActive = false from rfl)
  refine ordered.replace relines.orderly has active relines.line relines.clock
    (World.giveUpLock_nextTicket ..) (ordered.timely_of_ended has waits rfl) ?_ nofun nofun
  simp [waits, LockFate.isGranted, LockFate.isHolding]

theorem dropOn (ordered : locking.Ordered) (has : locking.calls name = before ++ call :: after)
    {since : Nat} (holds : call.fate = .holding since) :
    (locking.dropOn name before call since after).Ordered := by
  have active : call.fate.isActive := by rw [holds]; rfl
  have granted : call.fate.isGranted := by rw [holds]; rfl
  have relines := ordered.releaseLock_relines has holds
  have timely := ordered.timely name call (by simp [has])
  refine ordered.replace relines.orderly has active relines.line relines.clock rfl ?_ ?_ nofun ?_
  · refine ⟨timely.started, nofun, fun moment ended => timely.ended moment ?_⟩
    rw [holds]
    exact ended
  · simp [holds, LockFate.isGranted]
  · intro _
    exact LockCall.standing_eq_nil_iff.mp (ordered.standing_eq_nil_of_isGranted has granted)

theorem step (ordered : locking.Ordered) {event : LockEvent}
    (step : locking.Step event next) : next.Ordered := by
  cases step with
  | call name timeout token => exact ordered.callOn name timeout token
  | balk name timeout cancelled => exact ordered.balkOn name timeout _
  | poll has waits awake => exact ordered.pollOn has waits
  | @abandon name before call after has waits cancelled =>
      cases fate : call.fate with
      | waiting alarm => exact ordered.abandonOn has fate
      | holding since => simp [fate, LockFate.isWaiting] at waits
      | dropped since => simp [fate, LockFate.isWaiting] at waits
      | refused answer moment => simp [fate, LockFate.isWaiting] at waits
  | drop has holds => exact ordered.dropOn has holds
  | cancel token =>
      exact ⟨ordered.orderly, ordered.line, ordered.fresh, ordered.distinct, ordered.inTurn,
        ordered.timely, ordered.grants, ordered.granted⟩
  | tick settled later inTime =>
      refine ⟨ordered.orderly, ordered.line, ordered.fresh, ordered.distinct, ordered.inTurn, ?_,
        ordered.grants, ordered.granted⟩
      intro name call callMem
      have timely := ordered.timely name call callMem
      refine ⟨Nat.le_trans timely.started later, fun alarm waits => ?_, timely.ended⟩
      exact ⟨(timely.waiting alarm waits).1, inTime name call callMem alarm waits⟩
  | elsewhere sameLocks sameClock sameTickets =>
      refine ⟨sameLocks ▸ ordered.orderly, ?_, ?_, ordered.distinct, ordered.inTurn, ?_,
        ordered.grants, ordered.granted⟩
      · rw [sameLocks]
        exact ordered.line
      · rw [sameTickets]
        exact ordered.fresh
      · rw [sameClock]
        exact ordered.timely

end Ordered

theorem ordered_initial {world : World ω} (noLocks : world.locks = .empty) :
    (initial world).Ordered where
  orderly := noLocks ▸ LockTable.orderly_empty
  line _ := by
    rw [initial, noLocks]
    rfl
  fresh _ _ callMem := nomatch callMem
  distinct _ := List.nodup_nil
  inTurn _ := List.Pairwise.nil
  timely _ _ callMem := nomatch callMem
  grants _ := List.Pairwise.nil
  granted _ _ := by simp [initial]

theorem History.ordered {first last : Locking ω} {events : List LockEvent}
    (history : History first events last) (ordered : first.Ordered) : last.Ordered := by
  induction history with
  | start => exact ordered
  | step history step ih => exact ih.step step

end Locking

end TestEngine
