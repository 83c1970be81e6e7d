import TestEngine.Proofs.Pause.Alone
import TestEngine.Proofs.Pause.Core
import TestEngine.Proofs.Session.Onward

/-!
# Runs that are alike

Two programs are alike if they ask the same as long as they get the same answers, where results that
they publish may differ in times, and where answers that are times may differ. What such programs
come to that have the world to themselves is alike too if they start from sessions and worlds with
the same cores: the calls are the same, and the cores that they leave behind.
-/

namespace TestEngine

variable {ω α β : Type}

/-! ### Optional values -/

section Option

variable {γ δ : Type}

theorem rel_bind {relation : α → β → Prop} {target : γ → δ → Prop} {value : Option α}
    {other : Option β} {next : α → Option γ} {otherNext : β → Option δ}
    (related : Option.Rel relation value other)
    (goesOn : ∀ a b, relation a b → Option.Rel target (next a) (otherNext b)) :
    Option.Rel target (value.bind next) (other.bind otherNext) := by
  cases related with
  | some related => exact goesOn _ _ related
  | none => exact .none

theorem rel_map {relation : α → β → Prop} {target : γ → δ → Prop} {value : Option α}
    {other : Option β} {change : α → γ} {otherChange : β → δ}
    (related : Option.Rel relation value other)
    (goesOn : ∀ a b, relation a b → target (change a) (otherChange b)) :
    Option.Rel target (value.map change) (other.map otherChange) := by
  cases related with
  | some related => exact .some (goesOn _ _ related)
  | none => exact .none

theorem rel_trans {relation : α → β → Prop} {further : β → γ → Prop} {composed : α → γ → Prop}
    {first : Option α} {middle : Option β} {last : Option γ}
    (composes : ∀ a b c, relation a b → further b c → composed a c)
    (before : Option.Rel relation first middle) (after : Option.Rel further middle last) :
    Option.Rel composed first last := by
  cases before with
  | none =>
      cases after
      exact .none
  | some before =>
      cases after with
      | some after => exact .some (composes _ _ _ before after)

end Option

/-! ### Programs -/

/-- Whether the answer to a request is the same in sessions and worlds with the same cores. -/
def Request.isTimeless : Request → Bool
  | checkpoint | sleep _ | acquire .. | release _ | perform _ | execute _ | verify .. | moveTo _
  | noteStart | endJob _ => true
  | _ => false

/-- Programs that ask the same and end with values that a relation holds of. -/
inductive Program.Alike (same : α → β → Prop) : Program α → Program β → Prop
  | done {value : α} {other : β} (sameValue : same value other) :
      Alike same (.done value) (.done other)
  | now {next : Request.now.Answer → Program α} {otherNext : Request.now.Answer → Program β}
      (goesOn : ∀ moment later, Alike same (next moment) (otherNext later)) :
      Alike same (.ask .now next) (.ask .now otherNext)
  | publish {results others : List ElementResult} {next : Unit → Program α}
      {otherNext : Unit → Program β}
      (sameResults : results.map ElementResult.untimed = others.map ElementResult.untimed)
      (goesOn : Alike same (next ()) (otherNext ())) :
      Alike same (.ask (.publish results) next) (.ask (.publish others) otherNext)
  | ask {request : Request} {next : request.Answer → Program α}
      {otherNext : request.Answer → Program β} (timeless : request.isTimeless)
      (goesOn : ∀ answer, Alike same (next answer) (otherNext answer)) :
      Alike same (.ask request next) (.ask request otherNext)

namespace Program.Alike

theorem bind {γ δ : Type} {relation : α → β → Prop} {same : γ → δ → Prop} {program : Program α}
    {other : Program β} {next : α → Program γ} {otherNext : β → Program δ}
    (alike : program.Alike relation other)
    (goesOn : ∀ value otherValue, relation value otherValue →
      (next value).Alike same (otherNext otherValue)) :
    (program >>= next).Alike same (other >>= otherNext) := by
  change (program.bind next).Alike same (other.bind otherNext)
  induction alike with
  | done sameValue => exact goesOn _ _ sameValue
  | now _ ih => exact .now ih
  | publish sameResults _ ih => exact .publish sameResults ih
  | ask timeless _ ih => exact .ask timeless ih

theorem request {same : α → β → Prop} {request : Request} {next : request.Answer → Program α}
    {otherNext : request.Answer → Program β} (timeless : request.isTimeless)
    (goesOn : ∀ answer, (next answer).Alike same (otherNext answer)) :
    (Program.request request >>= next).Alike same (Program.request request >>= otherNext) :=
  .ask timeless goesOn

theorem requestNow {same : α → β → Prop} {next : Calendar.Instant → Program α}
    {otherNext : Calendar.Instant → Program β}
    (goesOn : ∀ moment later, (next moment).Alike same (otherNext later)) :
    (Program.request .now >>= next).Alike same (Program.request .now >>= otherNext) :=
  .now goesOn

theorem requestPublish {same : α → β → Prop} {results others : List ElementResult}
    {next : Unit → Program α} {otherNext : Unit → Program β}
    (sameResults : results.map ElementResult.untimed = others.map ElementResult.untimed)
    (goesOn : (next ()).Alike same (otherNext ())) :
    (Program.request (.publish results) >>= next).Alike same
      (Program.request (.publish others) >>= otherNext) :=
  .publish sameResults goesOn

/-- A program that is like itself stays so whatever the answer to its first request is. -/
theorem next {relation : α → α → Prop} {request : Request} {next : request.Answer → Program α}
    (alike : (Program.ask request next).Alike relation (.ask request next))
    (answer : request.Answer) : (next answer).Alike relation (next answer) := by
  generalize same : Program.ask request next = program at alike
  cases alike with
  | done => exact nomatch same
  | now goesOn =>
      cases same
      exact goesOn answer answer
  | publish sameResults goesOn =>
      cases same
      exact goesOn
  | ask timeless goesOn =>
      cases same
      exact goesOn answer

/-- Of the requests of such a program, one that has to wait is timeless. -/
theorem timeless {relation : α → α → Prop} {request : Request}
    {next : request.Answer → Program α}
    (alike : (Program.ask request next).Alike relation (.ask request next)) :
    request.isTimeless ∨ request = .now ∨ ∃ results, request = .publish results := by
  generalize same : Program.ask request next = program at alike
  cases alike with
  | done => exact nomatch same
  | now =>
      cases same
      exact .inr (.inl rfl)
  | publish =>
      cases same
      exact .inr (.inr ⟨_, rfl⟩)
  | ask timeless =>
      cases same
      exact .inl timeless

end Program.Alike

/-! ### Activities -/

variable {session other : Session} {world otherWorld : World ω}

/-- Calls of capabilities that ended in the same way. -/
structure ActivityEnd.Alike (ended otherEnded : ActivityEnd ω α) : Prop where
  session : ended.session.core = otherEnded.session.core
  world : ended.world.core = otherEnded.world.core
  lines : ended.lines = otherEnded.lines
  reply : ended.reply = otherEnded.reply

theorem Activity.alone_congr (activity : Activity ω α) (sameSession : session.core = other.core)
    (sameWorld : world.core = otherWorld.core) (lines : List String) :
    Option.Rel ActivityEnd.Alike (activity.alone session world lines)
      (activity.alone other otherWorld lines) := by
  induction activity generalizing session other world otherWorld lines with
  | finish answer => exact .some ⟨sameSession, sameWorld, rfl, rfl⟩
  | crash => exact .some ⟨sameSession, sameWorld, rfl, rfl⟩
  | hang =>
      rw [alone, alone, Session.abandons_congr sameSession]
      split
      · exact .some ⟨sameSession, sameWorld, rfl, rfl⟩
      · exact .none
  | sleep duration next ih =>
      have sameAlarmed :
          (world.setAlarm duration).1.core = (otherWorld.setAlarm duration).1.core := sameWorld
      rw [alone, alone, Session.abandons_congr sameSession]
      split
      · exact ih sameSession sameWorld lines
      · split
        · exact .some ⟨sameSession, sameAlarmed, rfl, rfl⟩
        · exact ih sameSession sameAlarmed lines
  | log line next ih => exact ih sameSession sameWorld _
  | signal sent next ih => exact ih (Session.receive_congr sameSession sent) sameWorld lines
  | consult effect next ih =>
      rcases World.core_eq_iff.mp sameWorld with ⟨epoch, locks, cache, nextTicket, glances, state⟩
      have sameEffect : ({ world with state := effect world.state } : World ω).core =
          ({ otherWorld with state := effect otherWorld.state } : World ω).core :=
        World.core_eq_iff.mpr ⟨epoch, locks, cache, nextTicket, glances, congrArg effect state⟩
      rw [alone, alone, ← state]
      exact ih world.state sameSession (state ▸ sameEffect) lines

theorem Activity.awaited_congr (activity : Activity ω α) (alarm : Option Alarm)
    (sameSession : session.core = other.core) (sameWorld : world.core = otherWorld.core)
    (lines : List String) :
    Option.Rel ActivityEnd.Alike (activity.awaited alarm session world lines)
      (activity.awaited alarm other otherWorld lines) := by
  rw [awaited, awaited, Session.abandons_congr sameSession]
  split
  · exact .some ⟨sameSession, sameWorld, rfl, rfl⟩
  · cases alarm with
    | none => exact .none
    | some alarm => exact activity.alone_congr sameSession sameWorld lines

/-! ### Requests -/

/-- Requests that have the same answer. -/
structure Settled.Alike {request : Request} (settled otherSettled : Settled ω request) : Prop where
  session : settled.session.core = otherSettled.session.core
  world : settled.world.core = otherSettled.world.core
  answer : settled.answer = otherSettled.answer

theorem Settled.Alike.trans {request : Request} {first middle last : Settled ω request}
    (before : first.Alike middle) (after : middle.Alike last) : first.Alike last :=
  ⟨before.session.trans after.session, before.world.trans after.world,
    before.answer.trans after.answer⟩

theorem CallForm.settled_alike {request : Request} (form : CallForm ω α request)
    {ended otherEnded : ActivityEnd ω α} (alike : ended.Alike otherEnded) :
    (form.settled ended).Alike (form.settled otherEnded) := by
  refine ⟨alike.session, alike.world, ?_⟩
  rw [settled, settled, alike.lines, alike.reply]

/-- A call of a capability has the same answer in sessions and worlds with the same cores. -/
theorem CallForm.alone_call_congr {request : Request} (form : CallForm ω α request)
    (activity : Activity ω α) (sameSession : session.core = other.core)
    (sameWorld : world.core = otherWorld.core) :
    Option.Rel Settled.Alike (form.call activity session world []).alone
      (form.call activity other otherWorld []).alone := by
  rw [form.alone_call, form.alone_call]
  exact rel_map (activity.alone_congr sameSession sameWorld []) fun _ _ => form.settled_alike

/-- Time that passes while a timeless request waits does not change what becomes of it, and neither
does a pause. -/
theorem Wait.alone_congr {request : Request} (timeless : request.isTimeless)
    (wait : Wait ω request) (sameSession : session.core = other.core)
    (sameWorld : world.core = otherWorld.core) :
    Option.Rel Settled.Alike (wait.alone session world) (wait.alone other otherWorld) := by
  cases wait with
  | pause => exact nomatch timeless
  | interaction => exact nomatch timeless
  | sleep alarm seen => exact .some ⟨sameSession, sameWorld, rfl⟩
  | checkpoint =>
      have sameWoken : (session.mapControl Control.wake).core =
          (other.mapControl Control.wake).core := by
        rw [Session.core_wake, sameSession, Session.core_wake]
      refine .some ⟨Session.notice_congr sameWoken, sameWorld, ?_⟩
      exact congrArg (!·) (Session.interrupted_congr sameWoken)
  | @line lock timeout ticket alarm =>
      have sameLocks : world.locks = otherWorld.locks := (World.core_eq_iff.mp sameWorld).2.1
      simp only [Wait.alone, sameLocks]
      split
      · exact .some ⟨sameSession, sameWorld, rfl⟩
      · exact .some ⟨sameSession, World.giveUpLock_congr sameWorld lock ticket, rfl⟩
  | performing activity alarm =>
      exact rel_map (activity.awaited_congr alarm sameSession sameWorld [])
        fun _ _ => (CallForm.performing _).settled_alike
  | executing activity alarm lines =>
      exact rel_map (activity.awaited_congr alarm sameSession sameWorld lines)
        fun _ _ => (CallForm.executing _).settled_alike

/-- A call for a lock has the same answer in sessions and worlds with the same cores. -/
theorem Session.alone_tryLock_congr (lock : String) (timeout : Nat)
    (sameSession : session.core = other.core) (sameWorld : world.core = otherWorld.core) :
    Option.Rel Settled.Alike (session.tryLock world lock timeout).alone
      (other.tryLock otherWorld lock timeout).alone := by
  have sameCall := World.callLock_congr sameWorld lock
  have sameTicket : (world.callLock lock).2 = (otherWorld.callLock lock).2 :=
    (World.core_eq_iff.mp sameWorld).2.2.2.1
  have sameLocks : (world.callLock lock).1.locks = (otherWorld.callLock lock).1.locks :=
    (World.core_eq_iff.mp sameCall).2.1
  simp only [tryLock, sameTicket, sameLocks, Session.interrupted_congr sameSession]
  split
  · exact .some ⟨sameSession, sameCall, rfl⟩
  · split
    · exact .some ⟨sameSession, World.giveUpLock_congr sameCall lock _, rfl⟩
    · split
      · exact .some ⟨sameSession, World.giveUpLock_congr sameCall lock _, rfl⟩
      · have sameAlarmed : ((world.callLock lock).1.setAlarm timeout).1.core =
            ((otherWorld.callLock lock).1.setAlarm timeout).1.core := sameCall
        let wait : Wait ω (.acquire lock timeout) := .line (otherWorld.callLock lock).2 ⟨0, 0⟩
        exact wait.alone_congr rfl sameSession sameAlarmed

/-- A run that pauses at a checkpoint goes on as one that does not. -/
theorem Request.alone_checkpoint (registry : Registry ω) (session : Session) (world : World ω) :
    ∃ after, (Request.checkpoint.carryOut registry session world).alone =
        some ⟨after, world, !session.control.interrupted⟩ ∧
      after.core = session.notice.1.core := by
  cases interrupted : session.control.interrupted with
  | true =>
      refine ⟨session.notice.1, ?_, rfl⟩
      simp [carryOut, interrupted, Carried.alone]
  | false =>
      have noticed := congrArg Prod.fst (session.notice_of_not_interrupted interrupted)
      cases paused : session.control.paused with
      | false =>
          refine ⟨session.notice.1, ?_, rfl⟩
          simp [carryOut, interrupted, noticed, paused, Carried.alone]
      | true =>
          let woken := (session.mapControl Control.park).mapControl Control.wake
          have wokenCore : woken.core = session.core := by
            rw [Session.core_wake, Session.core_park]
          have stillGoing : woken.control.interrupted = false :=
            (Session.interrupted_congr wokenCore).trans interrupted
          refine ⟨woken.notice.1, ?_, Session.notice_congr wokenCore⟩
          have carried : Request.checkpoint.carryOut registry session world =
              ⟨session.mapControl Control.park, world, .waiting .checkpoint⟩ := by
            simp [carryOut, interrupted, noticed, paused]
          rw [carried]
          simp [Carried.alone, Wait.alone, woken, stillGoing]

/-- The answer to a timeless request depends on the cores alone. -/
theorem Request.alone_congr (registry : Registry ω) {request : Request}
    (timeless : request.isTimeless) (sameSession : session.core = other.core)
    (sameWorld : world.core = otherWorld.core) :
    Option.Rel Settled.Alike (request.carryOut registry session world).alone
      (request.carryOut registry other otherWorld).alone := by
  rcases World.core_eq_iff.mp sameWorld with ⟨epoch, locks, cache, nextTicket, glances, state⟩
  have sameInterrupted := Session.interrupted_congr sameSession
  cases request with
  | elapsed => exact nomatch timeless
  | now => exact nomatch timeless
  | publish results => exact nomatch timeless
  | openInteraction => exact nomatch timeless
  | awaitInteraction => exact nomatch timeless
  | cancelRun => exact nomatch timeless
  | awaitResume => exact nomatch timeless
  | beginJob => exact nomatch timeless
  | checkpoint =>
      rcases alone_checkpoint registry session world with ⟨after, alone, afterCore⟩
      rcases alone_checkpoint registry other otherWorld with ⟨otherAfter, otherAlone, otherCore⟩
      rw [alone, otherAlone, sameInterrupted]
      exact .some
        ⟨afterCore.trans ((Session.notice_congr sameSession).trans otherCore.symm), sameWorld, rfl⟩
  | sleep duration =>
      have alone (session : Session) (world : World ω) :
          ∃ after : World ω, ((Request.sleep duration).carryOut registry session world).alone =
            some ⟨session, after, ()⟩ ∧ after.core = world.core := by
        rw [carryOut]
        split
        · exact ⟨world, rfl, rfl⟩
        · exact ⟨_, rfl, rfl⟩
      rcases alone session world with ⟨after, settled, afterCore⟩
      rcases alone other otherWorld with ⟨otherAfter, otherSettled, otherCore⟩
      rw [settled, otherSettled]
      exact .some ⟨sameSession, afterCore.trans (sameWorld.trans otherCore.symm), rfl⟩
  | acquire lock timeout =>
      rcases World.heed_congr sameWorld session.control.interrupted with ⟨sameHeeded, sameGlance⟩
      simp only [carryOut, ← sameInterrupted, ← sameGlance]
      split
      · exact .some ⟨sameSession, World.balkAtLock_congr sameHeeded lock, rfl⟩
      · exact Session.alone_tryLock_congr lock timeout sameSession sameHeeded
  | release lock => exact .some ⟨sameSession, World.releaseLock_congr sameWorld lock, rfl⟩
  | perform call =>
      rcases World.heed_congr sameWorld session.abandons with ⟨sameHeeded, sameGlance⟩
      simp only [carryOut, ← Session.abandons_congr sameSession, ← sameGlance]
      split
      · exact .some ⟨sameSession, sameHeeded, rfl⟩
      · exact (CallForm.performing call).alone_call_congr _ sameSession sameHeeded
  | execute call =>
      rcases World.heed_congr sameWorld session.abandons with ⟨sameHeeded, sameGlance⟩
      simp only [carryOut, ← Session.abandons_congr sameSession, ← sameGlance]
      split
      · exact .some ⟨sameSession, sameHeeded, rfl⟩
      · exact (CallForm.executing call).alone_call_congr _ sameSession sameHeeded
  | verify check property => exact .some ⟨sameSession, sameWorld, rfl⟩
  | moveTo cursor =>
      refine .some ⟨?_, sameWorld, rfl⟩
      exact congrArg (fun session : Session => { session with cursor }) sameSession
  | noteStart => exact .some ⟨Session.noteStart_congr sameSession _ _, sameWorld, rfl⟩
  | endJob ending =>
      rcases Session.statusAfter_congr sameSession ending with ⟨sameEnded, sameStatus⟩
      rcases Session.finalize_congr sameEnded (session.statusAfter ending).2 world.now
        otherWorld.now world.cache with ⟨sameFinalized, sameCache⟩
      rw [sameStatus] at sameFinalized sameCache
      rw [cache] at sameFinalized sameCache
      refine .some ⟨?_, ?_, sameStatus⟩
      · simp only [carryOut, sameStatus, cache]
        exact sameFinalized
      · simp only [carryOut, sameStatus, cache]
        exact World.core_eq_iff.mpr ⟨epoch, locks, sameCache, nextTicket, glances, state⟩

/-! ### Runs -/

/-- Runs that came to the same. -/
structure RunEnd.Alike (same : α → β → Prop) (ended : RunEnd ω α) (otherEnded : RunEnd ω β) :
    Prop where
  calls : ended.calls = otherEnded.calls
  value : same ended.value otherEnded.value
  session : ended.session.core = otherEnded.session.core
  world : ended.world.core = otherEnded.world.core

theorem RunEnd.Alike.behind {same : α → β → Prop} {ended : RunEnd ω α} {otherEnded : RunEnd ω β}
    (alike : ended.Alike same otherEnded) (calls : List Request) :
    (ended.behind calls).Alike same (otherEnded.behind calls) :=
  ⟨congrArg (calls ++ ·) alike.calls, alike.value, alike.session, alike.world⟩

/-- Programs that are alike come to the same from the same cores. -/
theorem Program.Alike.alone {same : α → β → Prop} {program : Program α} {otherProgram : Program β}
    (alike : program.Alike same otherProgram) (registry : Registry ω)
    (sameSession : session.core = other.core) (sameWorld : world.core = otherWorld.core) :
    Option.Rel (RunEnd.Alike same) (program.alone registry session world)
      (otherProgram.alone registry other otherWorld) := by
  induction alike generalizing session other world otherWorld with
  | done sameValue => exact .some ⟨rfl, sameValue, sameSession, sameWorld⟩
  | now _ ih =>
      exact rel_map (ih world.now otherWorld.now sameSession sameWorld)
        fun _ _ alike => alike.behind _
  | publish sameResults _ ih =>
      exact rel_map (ih (Session.publish_congr sameSession sameResults) sameWorld)
        fun _ _ alike => alike.behind _
  | ask timeless _ ih =>
      refine rel_bind (Request.alone_congr registry timeless sameSession sameWorld) ?_
      intro settled otherSettled sameSettled
      rw [sameSettled.answer]
      exact rel_map (ih _ sameSettled.session sameSettled.world) fun _ _ alike => alike.behind _

end TestEngine
