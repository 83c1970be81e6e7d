import TestEngine.Proofs.Conduct
import TestEngine.Proofs.Lock.Aside
import TestEngine.Proofs.Machine.Run
import TestEngine.Proofs.Script.Denial
import TestEngine.Proofs.Script.Grouping
import TestEngine.Proofs.Script.Soundness

/-!
# Locks that nobody else wants

A run that is alone with a lock table is granted every lock at once that it does not hold itself: it
calls for a lock right after a checkpoint, so that no interruption comes between. So a script whose
locks are not nested in themselves is performed like the script with plain groups in their place: on
the same beats both wait for the same at the same clock, make the same calls of capabilities at the
same clock, and come to the same result.
-/

namespace TestEngine

variable {ω α β : Type}

/-! ### Tables -/

namespace LockTable

variable {base table : LockTable} {name : String} {held : List String}

/-- A table that nobody uses. -/
def Idle (table : LockTable) : Prop := ∀ name, table.line name = []

theorem Idle.orderly (idle : table.Idle) : table.Orderly := by
  intro name entry found _
  have nobody := idle name
  rw [line_eq_line found] at nobody
  exact (List.append_eq_nil_iff.mp nobody).2

theorem Idle.free (idle : table.Idle) (name : String) : table.owner? name = none :=
  (line_eq_nil_iff idle.orderly).mp (idle name)

/-- A table in which somebody who is alone holds locks, the one first that was granted last. -/
def HeldAlone (base : LockTable) (held : List String) (table : LockTable) : Prop :=
  ∃ guards trace, base.Moved 0 guards trace table ∧ guards.map Prod.fst = held

theorem HeldAlone.nothing (base : LockTable) : base.HeldAlone [] base :=
  ⟨[], [], .start base 0, rfl⟩

theorem HeldAlone.idle (heldAlone : base.HeldAlone [] table) (idle : base.Idle) : table.Idle := by
  rcases heldAlone with ⟨guards, trace, moved, none⟩
  obtain rfl := List.map_eq_nil_iff.mp none
  intro name
  rw [moved.line_eq idle.orderly]
  exact idle name

/-- A lock that is not held is granted at once to a run that is not interrupted. -/
theorem HeldAlone.acquire (heldAlone : base.HeldAlone held table) (idle : base.Idle)
    (apart : name ∉ held) (timeout : Nat) (registry : Registry ω) {session : Session}
    (calm : session.control.interrupted = false) (world : World ω) (nextTicket : Ticket) :
    ∃ locks later, (Request.acquire name timeout).carryOut registry session
        (world.withLocks table nextTicket) =
          ⟨session, world.withLocks locks later, .answered .granted⟩ ∧
      base.HeldAlone (name :: held) locks := by
  rcases heldAlone with ⟨guards, trace, moved, rfl⟩
  have noGuard : NameMap.lookup name guards = none := by
    rw [← Option.not_isSome_iff_eq_none, NameMap.isSome_lookup_iff]
    exact apart
  have free := moved.owner?_eq_none_iff.mpr ⟨noGuard, idle.free name⟩
  have isOwner := isOwner_call_of_free (moved.orderly idle.orderly) free nextTicket
  have grants : session.tryLock (world.withLocks table nextTicket) name timeout =
      ⟨session, world.withLocks (table.call name nextTicket) (nextTicket + 1),
        .answered .granted⟩ := if_pos isOwner
  refine ⟨_, nextTicket + 1, ?_, (name, nextTicket) :: guards, _,
    moved.grant idle.orderly free timeout (Nat.zero_le _), rfl⟩
  simp only [Request.carryOut, calm, World.heed_false, Bool.false_eq_true, if_false]
  exact grants

/-- The lock that was granted last is given back, and nobody is handed it. -/
theorem HeldAlone.release (heldAlone : base.HeldAlone (name :: held) table) (idle : base.Idle)
    (registry : Registry ω) (session : Session) (world : World ω) (nextTicket : Ticket) :
    ∃ locks later, (Request.release name).carryOut registry session
        (world.withLocks table nextTicket) =
          ⟨session, world.withLocks locks later, .answered ()⟩ ∧
      base.HeldAlone held locks := by
  rcases heldAlone with ⟨_ | ⟨⟨name, ticket⟩, guards⟩, trace, moved, told⟩
  · exact nomatch told
  · obtain ⟨rfl, rfl⟩ := List.cons.inj told
    refine ⟨table.release name, nextTicket, ?_, guards, _, moved.release, rfl⟩
    have noGuard : NameMap.lookup name guards = none := by
      rw [← Option.not_isSome_iff_eq_none, NameMap.isSome_lookup_iff]
      exact (List.nodup_cons.mp moved.distinct).1
    have nobody := moved.release.owner?_eq_none_iff.mpr ⟨noGuard, idle.free name⟩
    simp [Request.carryOut, World.releaseLock, World.noteHanded, World.withLocks, nobody]

end LockTable

/-! ### Calls right after a checkpoint -/

/-- A program that calls for locks only right after its checkpoints, in a session whose run may have
been interrupted or not. -/
def Program.Checks (interrupted : Bool) (program : Program α) : Prop :=
  ∃ standing, (program.Obeys (conduct fun _ => True) standing fun _ _ => True) ∧
    (standing.clear → interrupted = false)

namespace Program.Checks

variable {request : Request} {next : request.Answer → Program α} {answer : request.Answer}
  {session after : Session} {world left : World ω} {interrupted : Bool}

/-- A call for a lock is made by a run that is not interrupted. -/
theorem calm {name : String} {timeout : Nat} {next : LockAnswer → Program α}
    (checks : (Program.ask (.acquire name timeout) next).Checks interrupted) :
    interrupted = false := by
  rcases checks with ⟨standing, ⟨⟨-, clear⟩, -⟩, calm⟩
  exact calm clear

theorem ask {registry : Registry ω}
    (checks : (Program.ask request next).Checks session.control.interrupted)
    (carries : request.carryOut registry session world = ⟨after, left, .answered answer⟩) :
    (next answer).Checks after.control.interrupted := by
  rcases checks with ⟨standing, ⟨-, obeys⟩, calm⟩
  refine ⟨_, obeys answer, fun clear => ?_⟩
  have stays := Request.carryOut_clear registry world calm (congrArg Carried.outcome carries) clear
  rw [carries] at stays
  exact stays

/-- Whatever has happened until the request is answered, the program checks again. -/
theorem resume {wait : Wait ω request} (checks : (Program.ask request next).Checks interrupted)
    (resumes : wait.resume session world = ⟨after, left, .answered answer⟩) :
    (next answer).Checks after.control.interrupted := by
  rcases checks with ⟨standing, ⟨-, obeys⟩, -⟩
  refine ⟨_, obeys answer, fun clear => ?_⟩
  have stays := wait.resume_clear world (congrArg Carried.outcome resumes) clear
  rw [resumes] at stays
  exact stays

end Program.Checks

/-- The calls of capabilities in a history. -/
def Exchange.calls {ν : Type} (history : List (Exchange ν)) : List (Exchange ν) :=
  history.filter fun exchange => exchange.request.isCall

/-- A task that holds locks, and the one that does the same without locks. -/
inductive Stage.UnlocksTo (same : α → β → Prop) : List String → Stage ω α → Stage ω β → Prop
  | ready {held : List String} {program : Program α} {other : Program β}
      (goesOn : program.UnlocksTo same [] held other) (spares : other.SparesLocks)
      (checks : ∀ interrupted, program.Checks interrupted) :
      UnlocksTo same held (.ready program) (.ready other)
  | waiting {held : List String} {request : Request} {wait : Wait ω request}
      {next : request.Answer → Program α} {otherNext : request.Answer → Program β}
      (aside : request.isLocking = false)
      (goesOn : ∀ answer, (next answer).UnlocksTo same [] held (otherNext answer))
      (spares : ∀ answer, (otherNext answer).SparesLocks) {interrupted : Bool}
      (checks : (Program.ask request next).Checks interrupted) :
      UnlocksTo same held (.waiting wait next) (.waiting wait otherNext)
  | done {value : α} {other : β} (sameValue : same value other) :
      UnlocksTo same [] (.done value) (.done other)

/-- A task that is alone with a lock table, and the one that does the same without locks. They
differ in the locks, and in the name of the place they are at. -/
inductive Performance.UnlocksTo (same : α → β → Prop) (base : LockTable) :
    Performance ω α → Performance ω β → Prop
  | intro {held : List String} {cursor : Cursor} {session : Session} {locks : LockTable}
      {nextTicket : Ticket} {world : World ω} {stage : Stage ω α} {otherStage : Stage ω β}
      {since : Nat} {history otherHistory : List (Exchange Span)}
      (places : cursor.UnlocksTo session.cursor) (heldAlone : base.HeldAlone held locks)
      (stages : stage.UnlocksTo same held otherStage)
      (sameCalls : Exchange.calls history = Exchange.calls otherHistory) :
      UnlocksTo same base
        ⟨⟨session.withCursor cursor, world.withLocks locks nextTicket, stage⟩, since, history⟩
        ⟨⟨session, world, otherStage⟩, since, otherHistory⟩

theorem Exchange.calls_snoc {ν : Type} {history other : List (Exchange ν)}
    (sameCalls : calls history = calls other) (exchange : Exchange ν) :
    calls (history ++ [exchange]) = calls (other ++ [exchange]) := by
  rw [calls, calls] at sameCalls ⊢
  rw [List.filter_append, List.filter_append, sameCalls]

/-- What is no call may be asked by one of two only. -/
theorem Exchange.calls_snoc_of_not_isCall {ν : Type} (history : List (Exchange ν))
    {exchange : Exchange ν} (noCall : exchange.request.isCall = false) :
    calls (history ++ [exchange]) = calls history := by
  rw [calls, calls, List.filter_append, List.filter_cons_of_neg (by simp [noCall])]
  exact List.append_nil _

theorem Cursor.UnlocksTo.placeAfter {cursor other : Cursor} (places : cursor.UnlocksTo other)
    (request : Request) : (request.placeAfter cursor).UnlocksTo (request.placeAfter other) := by
  cases request with
  | moveTo place => exact .same place
  | _ => exact places

section Play

variable {same : α → β → Prop} {base : LockTable} {registry : Registry ω}

/-- A program that is granted what it asks for goes as far as the one without locks, and does the
same. -/
theorem Program.UnlocksTo.perform (idle : base.Idle) {held : List String} {program : Program α}
    {other : Program β} (unlocks : program.UnlocksTo same [] held other)
    (spares : other.SparesLocks) {cursor : Cursor} {session : Session}
    (checks : program.Checks session.control.interrupted)
    (places : cursor.UnlocksTo session.cursor) {locks : LockTable}
    (heldAlone : base.HeldAlone held locks) {nextTicket : Ticket} {world : World ω}
    {history otherHistory : List (Exchange Span)}
    (sameCalls : Exchange.calls history = Exchange.calls otherHistory) :
    (program.perform registry (session.withCursor cursor) (world.withLocks locks nextTicket)
      history).UnlocksTo same base (other.perform registry session world otherHistory) := by
  -- A lock that is granted or given back is a step of the first program alone.
  induction unlocks generalizing cursor session locks nextTicket world history otherHistory with
  | done sameValue => exact .intro places heldAlone (.done sameValue) sameCalls
  | @ask held request next otherNext goesOn ih =>
      rcases Program.obeys_ask.mp spares with ⟨aside, sparesOn⟩
      have sameAfter := request.carryOut_aside cursor locks nextTicket aside registry session world
      have cursorAfter := request.carryOut_cursor registry session world
      have placesAfter := places.placeAfter request
      rw [← cursorAfter] at placesAfter
      rw [Program.perform, Program.perform, sameAfter]
      generalize carries : request.carryOut registry session world = carried at placesAfter
      rcases carried with ⟨after, left, answer | wait⟩
      · exact ih answer (sparesOn answer) (checks.ask carries) placesAfter heldAlone
          (Exchange.calls_snoc sameCalls _)
      · exact .intro placesAfter heldAlone (.waiting aside goesOn sparesOn checks) sameCalls
  | @moveTo held place otherPlace next otherNext moved goesOn ih =>
      have sparesOn := (Program.obeys_ask.mp spares).2
      rw [Program.perform, Program.perform]
      have carries : (Request.moveTo place).carryOut registry session world =
          ⟨session.withCursor place, world, .answered ()⟩ := rfl
      have checksOn := checks.ask carries
      refine @ih (sparesOn ()) place (session.withCursor otherPlace) checksOn moved locks heldAlone
        nextTicket world _ _ ?_
      rw [Exchange.calls_snoc_of_not_isCall _ rfl, Exchange.calls_snoc_of_not_isCall _ rfl,
        sameCalls]
  | @acquire held name timeout next other apart goesOn ih =>
      change Program.Checks (session.withCursor cursor).control.interrupted _ at checks
      rcases heldAlone.acquire idle apart timeout registry checks.calm world nextTicket with
        ⟨locks, later, carries, heldThen⟩
      have checksOn := checks.ask carries
      rw [Program.perform_of_answered carries]
      refine @ih spares _ session checksOn places _ heldThen _ _ _ _ ?_
      rw [Exchange.calls_snoc_of_not_isCall _ rfl, sameCalls]
  | @release held name next other goesOn ih =>
      change Program.Checks (session.withCursor cursor).control.interrupted _ at checks
      rcases heldAlone.release idle registry (session.withCursor cursor) world nextTicket with
        ⟨locks, later, carries, heldThen⟩
      have checksOn := checks.ask carries
      rw [Program.perform_of_answered carries]
      refine @ih spares _ session checksOn places _ heldThen _ _ _ _ ?_
      rw [Exchange.calls_snoc_of_not_isCall _ rfl, sameCalls]

theorem Stage.UnlocksTo.alarm? {held : List String} {stage : Stage ω α} {other : Stage ω β}
    (unlocks : stage.UnlocksTo same held other) : other.alarm? = stage.alarm? := by
  cases unlocks <;> rfl

theorem Stage.UnlocksTo.isAwake {held : List String} {stage : Stage ω α} {other : Stage ω β}
    (unlocks : stage.UnlocksTo same held other) (cursor : Cursor) (session : Session)
    (locks : LockTable) (nextTicket : Ticket) (world : World ω) :
    stage.isAwake (session.withCursor cursor) (world.withLocks locks nextTicket) =
      other.isAwake session world := by
  cases unlocks with
  | ready => rfl
  | @waiting _ _ wait _ _ aside => exact wait.isAwake_aside cursor locks nextTicket aside ..
  | done => rfl

namespace Performance.UnlocksTo

variable {performance : Performance ω α} {other : Performance ω β}

theorem poll (idle : base.Idle) (unlocks : performance.UnlocksTo same base other) :
    (performance.poll registry).UnlocksTo same base (other.poll registry) := by
  rcases unlocks with @⟨held, cursor, session, locks, nextTicket, world, stage, otherStage, since,
    history, otherHistory, places, heldAlone, stages, sameCalls⟩
  cases stages with
  | ready goesOn spares checks =>
      exact goesOn.perform idle spares (checks _) places heldAlone sameCalls
  | @waiting _ request wait next otherNext aside goesOn spares _ checks =>
      have sameAwake := wait.isAwake_aside cursor locks nextTicket aside session world
      have sameAfter := wait.resume_aside cursor locks nextTicket aside session world
      have placesAfter := places
      rw [← wait.resume_cursor session world] at placesAfter
      simp only [Performance.poll, sameAwake, sameAfter]
      split
      · generalize resumes : wait.resume session world = carried at placesAfter
        rcases carried with ⟨after, left, answer | wait⟩
        · exact (goesOn answer).perform idle (spares answer) (checks.resume resumes) placesAfter
            heldAlone (Exchange.calls_snoc sameCalls _)
        · exact .intro placesAfter heldAlone (.waiting aside goesOn spares checks) sameCalls
      · exact .intro places heldAlone (.waiting aside goesOn spares checks) sameCalls
  | done sameValue => exact .intro places heldAlone (.done sameValue) sameCalls

theorem beat (idle : base.Idle) (unlocks : performance.UnlocksTo same base other) (beat : Beat) :
    (performance.beat registry beat).UnlocksTo same base (other.beat registry beat) := by
  rcases unlocks with @⟨held, cursor, session, locks, nextTicket, world, stage, otherStage, since,
    history, otherHistory, places, heldAlone, stages, sameCalls⟩
  cases beat with
  | poll => exact (intro places heldAlone stages sameCalls).poll idle
  | signal sent =>
      have signalled : cursor.UnlocksTo (session.mapControl sent.act).cursor := places
      exact @intro _ _ _ _ _ _ _ _ _ nextTicket world _ _ since _ _ signalled heldAlone stages
        sameCalls
  | pass duration =>
      have sameClock : (⟨session.withCursor cursor, world.withLocks locks nextTicket, stage⟩ :
          Situation ω α).clockAfter duration =
            (⟨session, world, otherStage⟩ : Situation ω β).clockAfter duration := by
        simp only [Situation.clockAfter, stages.alarm?]
        rfl
      rw [Performance.beat, Performance.beat]
      dsimp only
      rw [sameClock]
      let later := { world with
        clock := (⟨session, world, otherStage⟩ : Situation ω β).clockAfter duration }
      exact @intro _ _ _ _ _ _ _ _ _ nextTicket later _ _ since _ _ places heldAlone stages
        sameCalls

/-- What is the same at the beginning stays the same on the same beats. -/
theorem play (idle : base.Idle) (unlocks : performance.UnlocksTo same base other)
    (beats : List Beat) :
    (performance.play registry beats).UnlocksTo same base (other.play registry beats) := by
  induction beats generalizing performance other with
  | nil => exact unlocks
  | cons beat rest ih => exact ih (unlocks.beat idle beat)

end Performance.UnlocksTo

end Play

/-! ### Scripts -/

/-- Two performances of scripts of which one locks what the other one groups, as they are seen from
outside. -/
structure Performance.Mirrors (locked grouped : Performance ω ScriptRun) : Prop where
  /-- The same calls of capabilities were made and answered at the same clock. -/
  calls : Exchange.calls locked.history = Exchange.calls grouped.history
  /-- Clients find the run in the same state, at the same place but for what its step is called. -/
  session : ∃ cursor, cursor.UnlocksTo grouped.situation.session.cursor ∧
    locked.situation.session = grouped.situation.session.withCursor cursor
  /-- The clock is the same, and so is everything else in the world but the locks. -/
  world : ∃ locks nextTicket,
    locked.situation.world = grouped.situation.world.withLocks locks nextTicket
  /-- Both wait for the same moment and go on at the same one. -/
  alarm : grouped.situation.stage.alarm? = locked.situation.stage.alarm?
  awake : grouped.situation.stage.isAwake grouped.situation.session grouped.situation.world =
    locked.situation.stage.isAwake locked.situation.session locked.situation.world
  /-- Both are over or none is, with the same result and the same context but for the place. -/
  ended : Option.Rel ScriptRun.UnlocksTo locked.situation.stage.value?
    grouped.situation.stage.value?
  /-- All locks are free in the end. -/
  freed (ran : ScriptRun) : locked.situation.stage = .done ran → locked.situation.world.locks.Idle

theorem Performance.UnlocksTo.mirrors {base : LockTable} {locked grouped : Performance ω ScriptRun}
    (unlocks : locked.UnlocksTo ScriptRun.UnlocksTo base grouped) (idle : base.Idle) :
    locked.Mirrors grouped := by
  rcases unlocks with @⟨held, cursor, session, locks, nextTicket, world, stage, otherStage, since,
    history, otherHistory, places, heldAlone, stages, sameCalls⟩
  constructor
  case calls => exact sameCalls
  case session => exact ⟨cursor, places, rfl⟩
  case world => exact ⟨locks, nextTicket, rfl⟩
  case alarm => exact stages.alarm?
  case awake => exact (stages.isAwake cursor session locks nextTicket world).symm
  case ended =>
    cases stages with
    | ready => exact .none
    | waiting => exact .none
    | done sameValue => exact .some sameValue
  case freed =>
    intro ran done
    obtain rfl : stage = .done ran := done
    cases stages
    exact heldAlone.idle idle

/-- A script that locks the same name twice, one time after the other. -/
def Script.orderly : Script :=
  ⟨"s", "Orderly", 1,
    [⟨"a", 1, .lock "db" (some 0) [⟨"f", 1, .function ⟨"nap", "", []⟩⟩]⟩,
      ⟨"b", 2, .lock "db" (some 0) [⟨"g", 1, .function ⟨"nap", "", []⟩⟩]⟩]⟩

end TestEngine
