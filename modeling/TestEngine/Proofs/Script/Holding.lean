import TestEngine.Proofs.Lock.Aside
import TestEngine.Proofs.Lock.Guards
import TestEngine.Proofs.Lock.Step
import TestEngine.Proofs.Pause.Scheduled
import TestEngine.Proofs.Script.Bracketing
import TestEngine.Proofs.Session.Life

/-!
# Scripts that run alone hold their locks

A run that is alone with a lock table knows at each moment which locks it holds: the table has a
guard of the run for each lock that it still has to give back. While it waits for a lock there is
one call more, which is taken back when the run gives up, since a lock that it does not get at once
is held for as long as it waits. So a lock is held while the body of its step is visited, and a run
that has ended, in whatever way, holds none.

The table is then as it was, but for names that nobody used. Under such a name a run leaves an entry
if its last call for the lock was cancelled before it looked whether the lock is free, which takes
an interruption between the checkpoint of the step and the call.
-/

namespace TestEngine

variable {ω α : Type}

/-! ### Where a task stands -/

/-- How a lock table is found while a task is at a stage: as it is, or, if the task waits in line,
with its call for a lock that is held. -/
inductive Stage.Stands (table : LockTable) : Stage ω α → World ω → Prop
  | aside {stage : Stage ω α} {world : World ω} (noTicket : stage.ticket? = none)
      (same : world.locks = table) (issued : table.Issued world.nextTicket) :
      Stands table stage world
  | inLine {name : String} {timeout : Nat} {ticket : Ticket} {alarm : Alarm}
      {next : LockAnswer → Program α} {world : World ω} (held : table.owner? name ≠ none)
      (issued : table.Issued ticket) (drawn : ticket < world.nextTicket)
      (called : world.locks = table.call name ticket) :
      Stands table (.waiting (.line ticket alarm : Wait ω (.acquire name timeout)) next) world

/-- The requests of a run have left nothing new under the names that nobody uses. -/
def LockTable.LeftClean (base : LockTable) (guards : List (String × Ticket))
    (trace : List Request) : Prop :=
  ∀ name, NameMap.lookup name guards = none → base.owner? name = none →
    base.leftUnder name trace = none ∨ base.leftUnder name trace = base.entries.get? name

/-- A task that is alone with a lock table, and holds guards. It has drawn their tickets itself, and
has still to give them back, the last one first. -/
structure Situation.Holds (base : LockTable) (first : Ticket) (guards : List (String × Ticket))
    (trace : List Request) (situation : Situation ω α) : Prop where
  moved : ∃ table, base.Moved first guards trace table ∧
    situation.stage.Stands table situation.world
  drawn : first ≤ situation.world.nextTicket
  obeys : situation.stage.remaining.Obeys guarding (guards.map Prod.fst) fun _ held => held = []
  clean : situation.session.control.interrupted = false → base.LeftClean guards trace

namespace Stage.Stands

variable {table : LockTable} {stage : Stage ω α} {world : World ω}

theorem of_no_ticket (stands : stage.Stands table world) (noTicket : stage.ticket? = none) :
    world.locks = table ∧ table.Issued world.nextTicket := by
  cases stands with
  | aside _ same issued => exact ⟨same, issued⟩
  | inLine => exact nomatch noTicket

theorem of_sparesLocks (stands : stage.Stands table world) {after : World ω}
    (spares : world.SparesLocks after) : stage.Stands table after := by
  cases stands with
  | aside noTicket same issued =>
      exact .aside noTicket (spares.locks.trans same) (spares.nextTicket ▸ issued)
  | inLine held issued drawn called =>
      exact .inLine held issued (spares.nextTicket ▸ drawn) (spares.locks.trans called)

/-- A call that waits takes no lock away from its owner. -/
theorem owner? (stands : stage.Stands table world) (orderly : table.Orderly) {name : String}
    {ticket : Ticket} (owner : table.owner? name = some ticket) :
    world.locks.owner? name = some ticket := by
  cases stands with
  | aside _ same _ => rw [same, owner]
  | inLine _ _ _ called =>
      rw [called]
      exact LockTable.owner?_call_of_some orderly owner _ _

end Stage.Stands

/-! ### What is left under free names -/

namespace LockTable

variable {base table : LockTable} {first : Ticket} {guards : List (String × Ticket)}
  {trace : List Request} {request : Request} {name : String}

theorem leftBy_of_aside (aside : request.isLocking = false) (entry : Option LockEntry) :
    leftBy name entry request = entry := by
  cases request with
  | acquire => exact nomatch aside
  | release => exact nomatch aside
  | _ => rfl

theorem Moved.aside (moved : base.Moved first guards trace table)
    (aside : request.isLocking = false) : base.Moved first guards (trace ++ [request]) table :=
  moved.keep fun _ _ => leftBy_of_aside aside _

theorem leftClean_start (base : LockTable) : base.LeftClean [] [] := fun _ _ _ => .inr rfl

/-- A request that says nothing of the names that are free. -/
theorem LeftClean.keep (clean : base.LeftClean guards trace)
    (same : ∀ name, NameMap.lookup name guards = none → base.owner? name = none →
      leftBy name (base.leftUnder name trace) request = base.leftUnder name trace) :
    base.LeftClean guards (trace ++ [request]) := by
  intro name noGuard free
  rw [leftUnder_snoc, same name noGuard free]
  exact clean name noGuard free

theorem LeftClean.aside (clean : base.LeftClean guards trace)
    (aside : request.isLocking = false) : base.LeftClean guards (trace ++ [request]) :=
  clean.keep fun _ _ _ => leftBy_of_aside aside _

theorem LeftClean.grant (clean : base.LeftClean guards trace) (name : String) (timeout : Nat)
    (ticket : Ticket) :
    base.LeftClean ((name, ticket) :: guards) (trace ++ [.acquire name timeout]) := by
  intro other noGuard free
  rw [NameMap.lookup] at noGuard
  split at noGuard
  · cases noGuard
  · rename_i apart
    rw [leftUnder_snoc, leftBy, if_neg apart]
    exact clean other noGuard free

theorem LeftClean.refuse (clean : base.LeftClean guards trace)
    (moved : base.Moved first guards trace table) (held : table.owner? name ≠ none)
    (timeout : Nat) : base.LeftClean guards (trace ++ [.acquire name timeout]) := by
  refine clean.keep fun other noGuard free => ?_
  rw [leftBy, if_neg]
  rintro rfl
  exact held (moved.owner?_eq_none_iff.mpr ⟨noGuard, free⟩)

theorem LeftClean.release {ticket : Ticket}
    (clean : base.LeftClean ((name, ticket) :: guards) trace) :
    base.LeftClean guards (trace ++ [.release name]) := by
  intro other noGuard free
  rw [leftUnder_snoc, leftBy]
  split
  · exact .inl rfl
  · rename_i apart
    exact clean other ((if_neg apart).trans noGuard) free

end LockTable

/-! ### Calls that come to nothing -/

section Calls

variable {session : Session} {world : World ω} {name : String}

theorem World.balkAtLock_locks (world : World ω) (name : String) :
    (world.balkAtLock name).locks =
      (world.locks.call name world.nextTicket).giveUp name world.nextTicket :=
  World.giveUpLock_locks ..

theorem World.balkAtLock_nextTicket (world : World ω) (name : String) :
    (world.balkAtLock name).nextTicket = world.nextTicket + 1 :=
  World.giveUpLock_nextTicket ..

/-- A call that takes itself back leaves no trace if the lock is held. -/
theorem World.balkAtLock_of_held (issued : world.locks.Issued world.nextTicket)
    (held : world.locks.owner? name ≠ none) : (world.balkAtLock name).locks = world.locks :=
  (world.balkAtLock_locks name).trans
    (LockTable.giveUp_call_of_held issued.orderly held (issued.fresh name))

/-- A call that finds its lock held takes itself back, or waits. -/
theorem Session.tryLock_of_not_owner (session : Session) (timeout : Nat)
    (notOwner : (world.callLock name).1.locks.isOwner name (world.callLock name).2 = false) :
    (∃ answer, answer ≠ .granted ∧ session.tryLock world name timeout =
        ⟨session, world.balkAtLock name, .answered answer⟩) ∨
      ∃ alarm, session.tryLock world name timeout =
        ⟨session, ((world.callLock name).1.setAlarm timeout).1,
          .waiting (.line (world.callLock name).2 alarm)⟩ := by
  simp only [tryLock, notOwner, Bool.false_eq_true, if_false]
  split
  · exact .inl ⟨.timedOut, by simp, rfl⟩
  · split
    · exact .inl ⟨.cancelled, by simp, rfl⟩
    · exact .inr ⟨_, rfl⟩

theorem Session.leaveLine_of_not_owner (session : Session) (timeout : Nat) {ticket : Ticket}
    (alarm : Alarm) (notOwner : world.locks.isOwner name ticket = false) :
    session.leaveLine world name timeout ticket alarm =
      ⟨session, world.giveUpLock name ticket,
        .answered (if world.isDue alarm then .timedOut else .cancelled)⟩ := by
  simp only [leaveLine, notOwner, Bool.false_eq_true, if_false]

end Calls

namespace Situation.Holds

variable {base : LockTable} {first : Ticket} {guards : List (String × Ticket)}
  {trace : List Request} {session : Session} {world : World ω}

/-- A run that has still to begin. -/
theorem start (session : Session) {program : Program α} (balanced : program.Balanced)
    (issued : world.locks.Issued world.nextTicket) :
    Situation.Holds world.locks world.nextTicket [] []
      (⟨session, world, .ready program⟩ : Situation ω α) where
  moved := ⟨world.locks, .start _ _, .aside rfl rfl issued⟩
  drawn := Nat.le_refl _
  obeys := balanced []
  clean _ := world.locks.leftClean_start

/-- What is asked aside of locks changes nothing. -/
theorem carried {request : Request} {stage : Stage ω α} {next : request.Answer → Program α}
    {reached : List Request} (aside : request.isLocking = false) (noTicket : stage.ticket? = none)
    (asks : stage.remaining = .ask request next) {carried : Carried ω request}
    (spares : world.SparesLocks carried.world)
    (stays : session.control.interrupted → carried.session.control.interrupted)
    (grows : reached = trace ∨ reached = trace ++ [request])
    (holds : Situation.Holds base first guards trace ⟨session, world, stage⟩) :
    (carried.situation next).Holds base first guards reached := by
  rcases holds with ⟨⟨table, moved, stands⟩, drawn, obeys, clean⟩
  rcases stands.of_no_ticket noTicket with ⟨same, issued⟩
  have sameThere := spares.locks.trans same
  have issuedThere : table.Issued carried.world.nextTicket := spares.nextTicket ▸ issued
  have drawnThere : first ≤ carried.world.nextTicket := spares.nextTicket ▸ drawn
  have movedThere : base.Moved first guards reached table := by
    rcases grows with rfl | rfl
    · exact moved
    · exact moved.aside aside
  have cleanThere (calm : carried.session.control.interrupted = false) :
      base.LeftClean guards reached := by
    have wasCalm : session.control.interrupted = false :=
      Bool.eq_false_iff.mpr fun interrupted => by simp [stays interrupted] at calm
    rcases grows with rfl | rfl
    · exact clean wasCalm
    · exact (clean wasCalm).aside aside
  change stage.remaining.Obeys guarding (guards.map Prod.fst) _ at obeys
  rw [asks] at obeys
  rw [Carried.situation]
  cases carried.outcome with
  | answered answer =>
      have goesOn := obeys.2 answer
      rw [guarding_after aside] at goesOn
      exact ⟨⟨table, movedThere, .aside rfl sameThere issuedThere⟩, drawnThere, goesOn, cleanThere⟩
  | waiting wait =>
      have waits := Request.ticket?_eq_none aside wait
      exact ⟨⟨table, movedThere, .aside waits sameThere issuedThere⟩, drawnThere, obeys,
        cleanThere⟩

section Locks

variable {name : String} {timeout : Nat} {next : LockAnswer → Program α}

/-- A call that is refused leaves the locks of the run as they are. -/
theorem denied {answer : LockAnswer} {table : LockTable} (isRefused : answer ≠ .granted)
    (moved : base.Moved first guards trace table)
    (same : world.locks = table) (issued : table.Issued world.nextTicket)
    (drawn : first ≤ world.nextTicket)
    (obeys : (Program.ask (.acquire name timeout) next).Obeys guarding (guards.map Prod.fst)
      fun _ held => held = [])
    (clean : session.control.interrupted = false → base.LeftClean guards trace) :
    Situation.Holds base first guards trace
      (⟨session, world, .ready (next answer)⟩ : Situation ω α) := by
  have goesOn := obeys.2 answer
  have sameHeld : guarding.after (guards.map Prod.fst) (.acquire name timeout) answer =
      guards.map Prod.fst := if_neg isRefused
  rw [sameHeld] at goesOn
  exact ⟨⟨table, moved, .aside rfl same issued⟩, drawn, goesOn, clean⟩

theorem acquire (registry : Registry ω) (baseOrderly : base.Orderly)
    (holds : Situation.Holds base first guards trace
      ⟨session, world, .ready (.ask (.acquire name timeout) next)⟩) :
    ∃ guards, (((Request.acquire name timeout).carryOut registry session world).situation
      next).Holds base first guards (trace ++ [.acquire name timeout]) := by
  rcases holds with ⟨⟨table, moved, stands⟩, drawn, obeys, clean⟩
  rcases stands.of_no_ticket rfl with ⟨rfl, issued⟩
  have drawnLater : first ≤ world.nextTicket + 1 := Nat.le_succ_of_le drawn
  let there := (world.heed session.control.interrupted).1
  simp only [Request.carryOut]
  -- A lock that is held is refused or waited for, also if it is held by the task itself.
  by_cases free : world.locks.owner? name = none
  · split
    · -- The call is cancelled before it looks, and leaves an entry.
      rename_i heeds
      have interrupted := World.interrupted_of_heed heeds
      refine ⟨guards, denied (by simp) (moved.balk baseOrderly free timeout world.nextTicket)
        (there.balkAtLock_locks name) ?_ ?_ obeys fun calm => ?_⟩
      · rw [there.balkAtLock_nextTicket]
        exact issued.balk free
      · rw [there.balkAtLock_nextTicket]
        exact drawnLater
      · cases calm.symm.trans interrupted
    · have isOwner := LockTable.isOwner_call_of_free issued.orderly free world.nextTicket
      have grants : session.tryLock there name timeout =
          ⟨session, (there.callLock name).1, .answered .granted⟩ := if_pos isOwner
      rw [grants]
      exact ⟨(name, world.nextTicket) :: guards,
        ⟨_, moved.grant baseOrderly free timeout drawn, .aside rfl rfl (issued.call name)⟩,
        drawnLater, obeys.2 .granted, fun calm => (clean calm).grant name timeout _⟩
  · refine ⟨guards, ?_⟩
    have stays := moved.refuse free timeout
    have cleanThere (calm : session.control.interrupted = false) :=
      (clean calm).refuse moved free timeout
    have balked : (there.balkAtLock name).locks = world.locks :=
      World.balkAtLock_of_held issued free
    have issuedThere : world.locks.Issued (there.balkAtLock name).nextTicket := by
      rw [there.balkAtLock_nextTicket]
      exact issued.mono (Nat.le_succ _)
    have drawnThere : first ≤ (there.balkAtLock name).nextTicket := by
      rw [there.balkAtLock_nextTicket]
      exact drawnLater
    split
    · exact denied (by simp) stays balked issuedThere drawnThere obeys cleanThere
    · have notOwner : (there.callLock name).1.locks.isOwner name (there.callLock name).2 = false :=
        LockTable.isOwner_call_of_held issued free
      rcases session.tryLock_of_not_owner timeout notOwner with
        ⟨answer, isRefused, refuses⟩ | ⟨alarm, waits⟩
      · rw [refuses]
        exact denied isRefused stays balked issuedThere drawnThere obeys cleanThere
      · rw [waits]
        exact ⟨⟨world.locks, stays, .inLine free issued (Nat.lt_succ_self world.nextTicket) rfl⟩,
          drawnLater, obeys, cleanThere⟩

/-- The lock that a task waits for stays held, so that the wait ends in vain. -/
theorem resumeLine {ticket : Ticket} {alarm : Alarm}
    (holds : Situation.Holds base first guards trace ⟨session, world,
      .waiting (.line ticket alarm : Wait ω (.acquire name timeout)) next⟩) :
    (((Wait.line ticket alarm : Wait ω (.acquire name timeout)).resume session world).situation
      next).Holds base first guards trace := by
  rcases holds with ⟨⟨table, moved, stands⟩, drawn, obeys, clean⟩
  cases stands with
  | aside noTicket => exact nomatch noTicket
  | inLine held issued drawnBefore called =>
      let there := (world.heed session.control.interrupted).1
      have notOwner : there.locks.isOwner name ticket = false := by
        change world.locks.isOwner name ticket = false
        rw [called]
        exact LockTable.isOwner_call_of_held issued held
      have gaveUp : (there.giveUpLock name ticket).locks = table := by
        rw [World.giveUpLock_locks]
        change world.locks.giveUp name ticket = table
        rw [called]
        exact LockTable.giveUp_call_of_held issued.orderly held (issued.fresh name)
      have sameNext : (there.giveUpLock name ticket).nextTicket = world.nextTicket :=
        World.giveUpLock_nextTicket ..
      have gives {answer : LockAnswer} (isRefused : answer ≠ .granted) :
          Situation.Holds base first guards trace
            (⟨session, there.giveUpLock name ticket, .ready (next answer)⟩ : Situation ω α) := by
        refine denied isRefused moved gaveUp ?_ ?_ obeys clean
        · rw [sameNext]
          exact issued.mono (Nat.le_of_lt drawnBefore)
        · rw [sameNext]
          exact drawn
      simp only [Wait.resume]
      split
      · exact gives (by simp)
      · rw [session.leaveLine_of_not_owner timeout alarm notOwner]
        refine gives ?_
        split <;> simp

/-- Only the last guard is ever given back. -/
theorem release (registry : Registry ω) {next : Unit → Program α}
    (holds : Situation.Holds base first guards trace
      ⟨session, world, .ready (.ask (.release name) next)⟩) :
    ∃ guards, (((Request.release name).carryOut registry session world).situation
      next).Holds base first guards (trace ++ [.release name]) := by
  rcases holds with ⟨⟨table, moved, stands⟩, drawn, obeys, clean⟩
  rcases stands.of_no_ticket rfl with ⟨rfl, issued⟩
  cases guards with
  | nil => exact nomatch obeys.1
  | cons guard guards =>
      rcases guard with ⟨held, ticket⟩
      obtain rfl : held = name := Option.some.inj obeys.1
      have released : (world.releaseLock held).locks = world.locks.release held := rfl
      exact ⟨guards, ⟨_, moved.release, .aside rfl released (issued.release held)⟩, drawn,
        obeys.2 (), fun calm => (clean calm).release⟩

end Locks

/-- Whatever else happens that leaves the locks alone, the guards stay. -/
theorem elsewhere {situation : Situation ω α}
    (holds : Situation.Holds base first guards trace situation) {session : Session}
    (stays : situation.session.control.interrupted → session.control.interrupted)
    {world : World ω} (spares : situation.world.SparesLocks world) :
    Situation.Holds base first guards trace { situation with session, world } := by
  rcases holds with ⟨⟨table, moved, stands⟩, drawn, obeys, clean⟩
  refine ⟨⟨table, moved, stands.of_sparesLocks spares⟩, spares.nextTicket ▸ drawn, obeys,
    fun calm => clean (Bool.eq_false_iff.mpr fun interrupted => ?_)⟩
  exact nomatch calm.symm.trans (stays interrupted)

/-- In its whole course a task that is alone holds some guards and nothing else. -/
theorem solo {registry : Registry ω} {permits : Signal → Prop} {begun last : Situation ω α}
    (course : Situation.Solo registry permits begun trace last)
    (baseOrderly : base.Orderly) (holds : Situation.Holds base first [] [] begun) :
    ∃ guards, Situation.Holds base first guards trace last := by
  induction course with
  | start => exact ⟨[], holds⟩
  | @ask _ session world request next _ ih =>
      rcases ih with ⟨guards, holds⟩
      cases aside : request.isLocking with
      | false =>
          exact ⟨guards, holds.carried aside rfl rfl
            (Request.carryOut_sparesLocks registry session world aside)
            (fun interrupted => request.carryOut_interrupted registry interrupted world)
            (.inr rfl)⟩
      | true =>
          cases request with
          | acquire name timeout => exact holds.acquire registry baseOrderly
          | release name => exact holds.release registry
          | _ => exact nomatch aside
  | @resume _ session world request wait next _ _ ih =>
      rcases ih with ⟨guards, holds⟩
      cases aside : request.isLocking with
      | false =>
          have noTicket : (Stage.waiting wait next).ticket? = none :=
            Request.ticket?_eq_none aside wait
          exact ⟨guards, holds.carried aside noTicket rfl
            (Request.resume_sparesLocks session world aside wait)
            (wait.resume_onward session world).control.interrupted (.inl rfl)⟩
      | true =>
          cases wait with
          | line ticket alarm => exact ⟨guards, holds.resumeLine⟩
          | _ => exact nomatch aside
  | finish _ ih =>
      rcases ih with ⟨guards, ⟨table, moved, stands⟩, drawn, obeys, clean⟩
      rcases stands.of_no_ticket rfl with ⟨same, issued⟩
      exact ⟨guards, ⟨table, moved, .aside rfl same issued⟩, drawn, obeys, clean⟩
  | @signal last _ _ signal _ ih =>
      rcases ih with ⟨guards, holds⟩
      exact ⟨guards, holds.elsewhere (Control.Onward.act last.session.control signal).interrupted
        (.refl _)⟩
  | @pass last _ _ world passes ih =>
      rcases ih with ⟨guards, holds⟩
      have spares : last.world.SparesLocks world := by
        rw [passes.same]
        exact ⟨rfl, rfl⟩
      exact ⟨guards, holds.elsewhere id spares⟩

end Situation.Holds

/-! ### What a task has gone through -/

section Advance

variable {registry : Registry ω} {request : Request} {next : request.Answer → Program α}
  {session after : Session} {world left : World ω}

theorem Program.advance_of_answered {answer : request.Answer}
    (carries : request.carryOut registry session world = ⟨after, left, .answered answer⟩) :
    (Program.ask request next).advance registry session world =
      (next answer).advance registry after left := by
  simp only [advance, carries]

theorem Program.advance_of_waiting {wait : Wait ω request}
    (carries : request.carryOut registry session world = ⟨after, left, .waiting wait⟩) :
    (Program.ask request next).advance registry session world =
      ⟨after, left, .waiting wait next⟩ := by
  simp only [advance, carries]

end Advance

section Leads

variable {program : Program α}

theorem Carried.exists_leads {request : Request} {next : request.Answer → Program α}
    {history : List (Exchange Unit)} (leads : program.Leads history (.ask request next))
    (carried : Carried ω request) :
    ∃ history : List (Exchange Unit),
      program.Leads history (carried.situation next).stage.remaining := by
  rw [Carried.situation]
  cases carried.outcome with
  | answered answer => exact ⟨_, leads.snoc answer ()⟩
  | waiting wait => exact ⟨history, leads⟩

/-- What a task has still to do, it has come to by exchanges. -/
theorem Situation.Solo.exists_leads {registry : Registry ω} {permits : Signal → Prop}
    {begun last : Situation ω α} {trace : List Request}
    (course : Situation.Solo registry permits begun trace last)
    (begins : begun.stage.remaining = program) :
    ∃ history : List (Exchange Unit), program.Leads history last.stage.remaining := by
  induction course with
  | start => exact ⟨[], begins ▸ .here⟩
  | ask _ ih =>
      rcases ih with ⟨history, leads⟩
      exact Carried.exists_leads leads _
  | resume _ _ ih =>
      rcases ih with ⟨history, leads⟩
      exact Carried.exists_leads leads _
  | finish _ ih => exact ih
  | signal _ _ ih => exact ih
  | pass _ _ ih => exact ih

end Leads

/-! ### Scripts -/

/-- A run of a script that is in the body of a lock: it has come to the visit of a step that locks a
name, was granted the lock, and has gone through a part of the body since then. -/
inductive Script.Inside (setting : Setting) (script : Script) (context : Context) (name : String) :
    List (Exchange Unit) → Prop
  | intro {earlier part : List (Exchange Unit)} {timeout : Option UInt64} {wait : Nat}
      {children : List Step} {frame : Frame} {rest : Program (Except Abort Flow × Frame)}
      (comes : (script.run setting context).ComesUpon earlier
        (((StepKind.lock name timeout children).visit setting).run.run frame))
      (visits : ((Visit.siblings (Step.visits setting children)).run.run frame).Leads part rest) :
      Inside setting script context name (earlier ++ ⟨.acquire name wait, .granted, ()⟩ :: part)

/-- The lock is one of those that the run holds by then. -/
theorem Script.Inside.mem_follow {setting : Setting} {script : Script} {context : Context}
    {name : String} {history : List (Exchange Unit)}
    (inside : script.Inside setting context name history) :
    name ∈ guarding.follow [] history := by
  rcases inside with @⟨earlier, part, _, wait, children, frame, _, comes, visits⟩
  have law := Visit.balanced_law setting
  have body := law.siblings
    (law.visits children (Step.allEveryLoop_of_forall (fun _ => trivial) _))
  have onTop := visits.follow_append (body frame []) (name :: guarding.follow [] earlier)
  have split : guarding.follow [] (earlier ++ ⟨.acquire name wait, .granted, ()⟩ :: part) =
      guarding.follow (name :: guarding.follow [] earlier) part := by
    rw [Protocol.follow, List.foldl_append, List.foldl_cons]
    rfl
  rw [split, ← List.nil_append (name :: _), onTop]
  simp

/-- What becomes of the locks when a script runs alone, up to some situation. -/
structure Script.BalancesLocks (setting : Setting) (script : Script) (context : Context)
    (world : World ω) (trace : List Request) (now : Situation ω ScriptRun) : Prop where
  /-- The run has come here by some history. -/
  reached : ∃ history : List (Exchange Unit),
    (script.run setting context).Leads history now.stage.remaining
  /-- If the history has led into the body of a lock, the run has a guard of it, with a ticket that
  it has drawn itself. -/
  inside (history : List (Exchange Unit)) (name : String) :
    (script.run setting context).Leads history now.stage.remaining →
      script.Inside setting context name history →
        ∃ ticket, world.nextTicket ≤ ticket ∧ now.world.locks.owner? name = some ticket
  /-- Nothing of a body is visited unless its lock was granted, or once it was given back. -/
  visits (name : String) (timeout : Nat) (body : Visit Flow) (frame : Frame)
    (history : List (Exchange Unit)) (rest : Program (Except Abort Flow × Frame)) :
    ((Visit.lock name timeout body).run.run frame).Leads history rest →
      Visit.Locks name timeout body frame history
  /-- A run that is over has no guard and waits for none. -/
  free (ran : ScriptRun) : now.stage = .done ran →
    ∀ name, ∀ ticket ∈ now.world.locks.line name, ticket < world.nextTicket
  /-- The same calls have and await each lock as before then. -/
  lines (ran : ScriptRun) : now.stage = .done ran → now.world.locks.line = world.locks.line
  /-- The entry of a name that somebody used is the one from before. Under any other name the last
  request of the run about its lock decides: a call has left an entry, a release has taken it out,
  and without either the entry is the one from before. -/
  entries (ran : ScriptRun) : now.stage = .done ran →
    ∀ name, now.world.locks.entries.get? name =
      if world.locks.owner? name = none then world.locks.leftUnder name trace
      else world.locks.entries.get? name
  /-- If only names in use had entries, the table is the one from before, unless the run has left an
  entry; and it leaves one only if it was interrupted. -/
  restored (ran : ScriptRun) : now.stage = .done ran →
    (∀ name entry, world.locks.entries.get? name = some entry → entry.owner ≠ none) →
      (now.world.locks = world.locks ↔
        ∀ name, world.locks.owner? name = none → world.locks.leftUnder name trace = none) ∧
      (now.session.control.interrupted = false → now.world.locks = world.locks)

/-- A script that runs alone holds the lock of each body that it visits, and gives all locks back,
whatever the capabilities do and however the run is interrupted or taken down. -/
theorem Situation.Solo.balancesLocks {registry : Registry ω} {setting : Setting} {script : Script}
    {context : Context} {session : Session} {world : World ω} {trace : List Request}
    {now : Situation ω ScriptRun}
    (course : Situation.Solo registry (fun _ => True)
      ⟨session, world, .ready (script.run setting context)⟩ trace now)
    (issued : world.locks.Issued world.nextTicket) :
    script.BalancesLocks setting context world trace now := by
  have balanced := script.run_balanced setting context
  rcases (Situation.Holds.start session balanced issued).solo course issued.orderly with
    ⟨guards, ⟨table, moved, stands⟩, drawn, obeys, clean⟩
  have orderly := moved.orderly issued.orderly
  -- Which guards there are can be told from what the run has still to do.
  have isOver (ran : ScriptRun) (done : now.stage = .done ran) :
      guards = [] ∧ world.locks.Moved world.nextTicket [] trace now.world.locks := by
    rw [done] at obeys stands
    obtain rfl : guards = [] := List.map_eq_nil_iff.mp obeys
    rw [(stands.of_no_ticket rfl).1]
    exact ⟨rfl, moved⟩
  constructor
  case reached => exact course.exists_leads rfl
  case inside =>
    intro history name leads inside
    have told := (leads.obeys (balanced [])).held_unique obeys
    have nameMem := inside.mem_follow
    rw [told, List.mem_map] at nameMem
    rcases nameMem with ⟨⟨held, ticket⟩, guardMem, rfl⟩
    exact ⟨ticket, moved.own _ guardMem, stands.owner? orderly (moved.owner? guardMem)⟩
  case visits => exact fun _ _ _ _ _ _ leads => Visit.leads_lock leads
  case free =>
    intro ran done name ticket ticketMem
    rw [(isOver ran done).2.line_eq issued.orderly] at ticketMem
    exact issued.earlier name ticket ticketMem
  case lines => exact fun ran done => (isOver ran done).2.line_eq issued.orderly
  case entries => exact fun ran done => (isOver ran done).2.entry
  case restored =>
    intro ran done inUse
    rcases isOver ran done with ⟨rfl, movedThere⟩
    have same := movedThere.eq_iff issued inUse
    refine ⟨same, fun calm => same.mpr fun name isFree => ?_⟩
    rcases clean calm name rfl isFree with gone | kept
    · exact gone
    · rw [kept]
      exact LockTable.get?_eq_none_of_inUse inUse isFree

/-- A script that locks a name and waits five moments for the same lock in the body. -/
def Script.selfish : Script :=
  ⟨"s", "Selfish", 1, [⟨"k", 1, .lock "db" none [⟨"l", 1, .lock "db" (some 5) []⟩]⟩]⟩

/-- The script while it waits for the lock that it holds. -/
def Script.selfishWaits : Situation Unit ScriptRun :=
  (selfish.run .logging (.ofProperties [])).advance .empty .unattended (.initial 0 .empty ())

def Script.selfishEnds : Situation Unit ScriptRun :=
  selfishWaits.stage.poll .empty selfishWaits.session { selfishWaits.world with clock := 5 }

theorem Script.selfishWaits_inside : ∃ history : List (Exchange Unit),
    (selfish.run .logging (.ofProperties [])).Leads history selfishWaits.stage.remaining ∧
      selfish.Inside .logging (.ofProperties []) "db" history := by
  let inner : Step := ⟨"l", 1, .lock "db" (some 5) []⟩
  let outer : Step := ⟨"k", 1, .lock "db" none [inner]⟩
  have first (frame : Frame) (step : Step) :
      ((Visit.siblings (Step.visits .logging [step])).run.run frame).ComesUpon
        [(⟨.checkpoint, true, ()⟩ : Exchange Unit),
          ⟨.moveTo (frame.entering step).context.cursor, (), ()⟩]
        ((step.kind.visit .logging).run.run (frame.entering step)) :=
    (Succession.done.comesUpon rfl).trans (Frame.Enters.intro () ()).comesUpon
  have comes : (selfish.run .logging (.ofProperties [])).ComesUpon _ _ :=
    (selfish.comesUpon_steps (.ofProperties []) (.ofEpochMillis 0) () ()).trans
      (first (selfish.opening (.ofProperties [])) outer)
  rcases first ((selfish.opening (.ofProperties [])).entering outer) inner with ⟨behind, visits⟩
  refine ⟨_, ?_, @Inside.intro _ _ _ _ _ _ none 0 _ _ _ comes visits⟩
  have waits : selfishWaits = ⟨_, _, .waiting _ _⟩ :=
    (Program.advance_of_answered rfl).trans <| (Program.advance_of_answered rfl).trans <|
    (Program.advance_of_answered rfl).trans <| (Program.advance_of_answered rfl).trans <|
    (Program.advance_of_answered rfl).trans <| (Program.advance_of_answered rfl).trans <|
    (Program.advance_of_answered rfl).trans <| Program.advance_of_waiting rfl
  rw [waits]
  exact .ask (.ask (.ask (.ask (.ask (.ask (.ask .here))))))

/-- While it waits it is in the body and has the lock; it gives up and leaves nothing behind. -/
theorem Script.selfish_balances :
    let began : Situation Unit ScriptRun :=
      ⟨.unattended, .initial 0 .empty (), .ready (selfish.run .logging (.ofProperties []))⟩
    (began.world.locks.Issued began.world.nextTicket ∧
      (∃ trace, Situation.Solo .empty (fun _ => True) began trace selfishWaits ∧
        selfish.BalancesLocks .logging (.ofProperties []) began.world trace selfishWaits) ∧
      ∃ trace, Situation.Solo .empty (fun _ => True) began trace selfishEnds ∧
        selfish.BalancesLocks .logging (.ofProperties []) began.world trace selfishEnds) ∧
      (∃ history : List (Exchange Unit),
        (selfish.run .logging (.ofProperties [])).Leads history selfishWaits.stage.remaining ∧
          selfish.Inside .logging (.ofProperties []) "db" history) ∧
      selfishWaits.world.locks.owner? "db" = some 0 ∧
      selfishEnds.stage.value?.map (fun ran => ran.result.verdict) = some (some .failed) ∧
      selfishEnds.world.locks.size = 0 := by
  intro began
  have issued : began.world.locks.Issued began.world.nextTicket := LockTable.issued_empty _
  have waits : Situation.Solo .empty (fun _ => True) began _ selfishWaits :=
    Situation.Solo.start.advance 0
  have passes : selfishWaits.world.Passes { selfishWaits.world with clock := 5 } :=
    ⟨by decide +kernel, rfl⟩
  have ends : Situation.Solo .empty (fun _ => True) began _ selfishEnds :=
    (waits.pass passes).poll 0
  exact ⟨⟨issued, ⟨_, waits, waits.balancesLocks issued⟩, ⟨_, ends, ends.balancesLocks issued⟩⟩,
    selfishWaits_inside, by decide +kernel, by decide +kernel, by decide +kernel⟩

/-- A script that locks a name and has nothing to do meanwhile. -/
def Script.momentary : Script := ⟨"s", "Momentary", 1, [⟨"l", 1, .lock "db" none []⟩]⟩

/-- A request that gets its answer at once. -/
theorem Situation.Solo.answered {registry : Registry ω} {permits : Signal → Prop}
    {begun : Situation ω α} {trace : List Request} {session after : Session} {world left : World ω}
    {request : Request} {next : request.Answer → Program α} {answer : request.Answer}
    (course : Situation.Solo registry permits begun trace
      ⟨session, world, .ready (.ask request next)⟩)
    (carries : request.carryOut registry session world = ⟨after, left, .answered answer⟩) :
    Situation.Solo registry permits begun (trace ++ [request])
      ⟨after, left, .ready (next answer)⟩ := by
  have asked := course.ask
  rw [carries] at asked
  exact asked

/-- A run that is interrupted between the checkpoint of its step and the call for the lock may leave
an entry behind, although nobody used the name before and nobody uses it now. -/
theorem Script.momentary_leaves_entry :
    let session : Session := { Session.unattended with attended := true }
    let world : World Unit := { World.initial 0 .empty () with glances := [true] }
    let began : Situation Unit ScriptRun :=
      ⟨session, world, .ready (momentary.run .logging (.ofProperties []))⟩
    world.locks.size = 0 ∧
      ∃ trace last, Situation.Solo .empty (fun _ => True) began trace last ∧
        last.stage.value?.map (fun ran => ran.result.verdict) = some (some .aborted) ∧
        last.world.locks.size = 1 := by
  intro session world began
  have opened : Situation.Solo .empty (fun _ => True) began [.now] ⟨session, world, .ready _⟩ :=
    Situation.Solo.start.answered rfl
  have entered := opened.answered rfl
  have checked := entered.answered rfl
  have moved := checked.answered rfl
  have interrupted := @Situation.Solo.signal _ _ _ _ _ _ _ moved .interrupt trivial
  exact ⟨rfl, _, _, interrupted.advance 0, by decide +kernel, by decide +kernel⟩

end TestEngine
