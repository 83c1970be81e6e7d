import TestEngine.Proofs.Pause.Solo

/-!
# Runs without any pause

A run that comes to an end if it has the world to itself is brought to its end without any signal of
a client: whatever it waits for is over once the clock has gone on far enough.
That it is not paused is kept by everything that it does, unless a capability pauses it.
-/

namespace TestEngine

variable {ω α β : Type}

/-! ### Capabilities that do not pause -/

def Activity.NeverPauses : Activity ω α → Prop
  | .finish _ => True
  | .crash => True
  | .hang => True
  | .sleep _ next => next.NeverPauses
  | .log _ next => next.NeverPauses
  | .signal sent next => sent ≠ .pause ∧ next.NeverPauses
  | .consult _ next => ∀ state, (next state).NeverPauses

/-- No capability pauses the run that calls it. -/
structure Registry.NeverPauses (registry : Registry ω) : Prop where
  backends : ∀ {name : String} {backend : Backend ω},
    registry.backends.get? name = some backend → ∀ call, (backend call).NeverPauses
  runner : ∀ {runner : Runner ω}, registry.runner = some runner → ∀ call, (runner call).NeverPauses

namespace Session

variable {session : Session}

theorem paused_receive (unpaused : session.control.paused = false) {sent : Signal}
    (noPause : sent ≠ .pause) : (session.receive sent).control.paused = false := by
  rw [receive]
  split
  · cases sent with
    | pause => exact absurd rfl noPause
    | resume =>
        simp only [mapControl, Signal.act, Control.resume]
        split <;> rfl
    | interact interaction =>
        simp only [mapControl, Signal.act, Control.interact, Control.resume]
        split <;> rfl
    | interrupt =>
        simp only [mapControl, Signal.act, Control.interrupt]
        split <;> exact unpaused
  · exact unpaused

theorem paused_notice (session : Session) :
    session.notice.1.control.paused = session.control.paused := by
  rw [control_notice, Control.paused_notice]

theorem paused_finalize (unpaused : session.control.paused = false) (status : JobStatus)
    (now : Calendar.Instant) (cache : TraceCache) :
    (session.finalize status now cache).1.control.paused = false := by
  rw [finalize]
  split
  · exact unpaused
  · simp only [Control.stop?]
    split
    · exact unpaused
    · rfl

end Session

/-! ### Waiting it out -/

namespace Situation

/-- A client that sends nothing. -/
def NoSignal (_ : Signal) : Prop := False

variable {registry : Registry ω} {request : Request} {next : request.Answer → Program α}
  {session : Session} {world : World ω}

section Settles

variable (registry next)

/-- Without any signal a request gets the answer that it was to get, and the run is not paused. -/
def Settles (carried : Carried ω request) : Prop :=
  ∃ trace settled, Solo registry NoSignal (carried.situation next) trace
      ⟨settled.session, settled.world, .ready (next settled.answer)⟩ ∧
    settled.session.control.paused = false ∧
    ∃ expected, carried.alone = some expected ∧ expected.Alike settled

end Settles

theorem settles_of_answered {carried : Carried ω request} {answer : request.Answer}
    (answered : carried.outcome = .answered answer)
    (unpaused : carried.session.control.paused = false) : Settles registry next carried := by
  refine ⟨[], ⟨carried.session, carried.world, answer⟩, ?_, unpaused,
    ⟨carried.session, carried.world, answer⟩, ?_, rfl, rfl, rfl⟩
  · rw [Carried.situation, answered]
    exact .start
  · rw [Carried.alone, answered]

/-- A task that waits gets on once the clock has come to a moment at which the wait is over. -/
theorem settles_of_wait {wait : Wait ω request} (moment : Nat) (timeless : request.isTimeless)
    (calm : wait.IsCalm session)
    (awake : wait.isAwake session { world with clock := max moment world.clock })
    (goesOn : Settles registry next
      (wait.resume session { world with clock := max moment world.clock })) :
    Settles registry next ⟨session, world, .waiting wait⟩ := by
  let later : World ω := { world with clock := max moment world.clock }
  rcases goesOn with ⟨trace, settled, course, unpaused, expected, alone, alike⟩
  have passes : world.Passes later := ⟨Nat.le_max_right .., rfl⟩
  have waited : Solo registry NoSignal ⟨session, world, .waiting wait next⟩ [] _ :=
    (Solo.start.pass passes).resume awake
  have comesTo : wait.alone session later = some expected :=
    (Wait.alone_resume awake calm).symm.trans alone
  refine ⟨trace, settled, waited.trans course, unpaused, ?_⟩
  have sameWait : Option.Rel Settled.Alike (wait.alone session world)
      (wait.alone session later) := Wait.alone_congr timeless wait rfl rfl
  rw [comesTo] at sameWait
  change ∃ expected, wait.alone session world = some expected ∧ _
  generalize wait.alone session world = original at sameWait
  cases sameWait with
  | some same => exact ⟨_, rfl, same.trans alike⟩

/-! ### Calls of capabilities -/

variable (form : CallForm ω β request)

theorem isSome_alone_kept (activity : Activity ω β) {later : World ω}
    (sameWorld : world.core = later.core) (lines : List String)
    (ends : (activity.alone session world lines).isSome) :
    (activity.alone session later (form.kept lines)).isSome := by
  have kept := form.alone_kept activity session later lines
  have same := activity.alone_congr (rfl : session.core = session.core) sameWorld lines
  rcases Option.isSome_iff_exists.mp ends with ⟨ended, comesTo⟩
  rw [comesTo] at same
  generalize activity.alone session later lines = other at same kept
  cases same with
  | some alike =>
      rw [← Option.isSome_map (f := form.settled), kept]
      rfl

/-- A call whose activity sleeps gets on if the activity does so when it is woken. -/
theorem settles_of_suspended (timeless : request.isTimeless) {activity : Activity ω β}
    {alarm : Option Alarm} {lines : List String} (unpaused : session.control.paused = false)
    (ends : (activity.awaited alarm session world lines).isSome)
    (goesOn : ∀ later : World ω, alarm.isSome →
      (activity.alone session later (form.kept lines)).isSome →
        Settles registry next (form.call activity session later (form.kept lines))) :
    Settles registry next
      (form.carried ⟨session, world, lines, .suspended activity alarm⟩ session.abandons) := by
  cases keeps : session.abandons with
  | true => exact settles_of_answered rfl unpaused
  | false =>
      rw [Activity.awaited, keeps, if_neg Bool.false_ne_true] at ends
      rcases Option.isSome_iff_exists.mp ends with ⟨ended, alone⟩
      rcases Option.bind_eq_some_iff.mp alone with ⟨alarm, rfl, comesTo⟩
      have calm := (form.isCalm_wait lines activity (some alarm) session).mpr keeps
      refine settles_of_wait alarm.due timeless calm ?_ ?_
      · rw [form.isAwake_wait, Option.any_some, Bool.or_eq_true]
        exact .inr (decide_eq_true (Nat.le_max_left ..))
      · have sameWorld : world.core =
            ({ world with clock := max alarm.due world.clock } : World ω).core := rfl
        have stillEnds : (activity.alone session world lines).isSome := by
          rw [comesTo]
          rfl
        rw [form.resume_wait _ _ _ _ _ keeps]
        exact goesOn _ rfl (isSome_alone_kept form activity sameWorld lines stillEnds)

/-- A call of a capability that comes to an end does so without any signal. -/
theorem settles_of_call (timeless : request.isTimeless) (activity : Activity ω β)
    (neverPauses : activity.NeverPauses) (unpaused : session.control.paused = false)
    (lines : List String) (ends : (activity.alone session world lines).isSome) :
    Settles registry next (form.call activity session world lines) := by
  induction activity generalizing session world lines with
  | finish answer => exact settles_of_answered rfl unpaused
  | crash => exact settles_of_answered rfl unpaused
  | log line next ih => exact ih neverPauses unpaused _ ends
  | signal sent next ih =>
      exact ih neverPauses.2 (Session.paused_receive unpaused neverPauses.1) lines ends
  | consult effect next ih =>
      exact ih world.state (neverPauses world.state) unpaused lines ends
  | hang =>
      have hangs : (Activity.hang.awaited none session world lines).isSome := ends
      exact settles_of_suspended form timeless unpaused hangs fun _ rings => nomatch rings
  | sleep duration next ih =>
      rcases Nat.eq_zero_or_pos duration with rfl | positive
      · exact ih neverPauses unpaused lines ends
      · have isPositive : duration ≠ 0 := Nat.pos_iff_ne_zero.mp positive
        rw [CallForm.call, Activity.advance, if_neg isPositive]
        rw [Activity.alone, if_neg isPositive] at ends
        have sleeps : (next.awaited (some (world.setAlarm duration).2) session
            (world.setAlarm duration).1 lines).isSome := ends
        exact settles_of_suspended form timeless unpaused sleeps fun later _ goesOn =>
          ih neverPauses unpaused (form.kept lines) goesOn

theorem settles_of_request (form : CallForm ω β request) (timeless : request.isTimeless)
    {activity : Activity ω β} (neverPauses : activity.NeverPauses)
    (unpaused : session.control.paused = false)
    (ends : (form.call activity session world []).alone.isSome) :
    Settles registry next (form.call activity session world []) := by
  rw [form.alone_call, Option.isSome_map] at ends
  exact settles_of_call form timeless activity neverPauses unpaused [] ends

/-! ### Requests -/

/-- A run that is not paused goes through its checkpoints without waiting. -/
theorem settles_of_checkpoint {next : Bool → Program α}
    (unpaused : session.control.paused = false) :
    Settles registry next (Request.checkpoint.carryOut registry session world) := by
  have stillUnpaused := (Session.paused_notice session).trans unpaused
  simp only [Request.carryOut, stillUnpaused]
  split
  · exact settles_of_answered rfl stillUnpaused
  · exact settles_of_answered rfl stillUnpaused

theorem settles_of_sleep {duration : Nat} {next : Unit → Program α}
    (unpaused : session.control.paused = false) :
    Settles registry next ((Request.sleep duration).carryOut registry session world) := by
  simp only [Request.carryOut]
  split
  · exact settles_of_answered rfl unpaused
  · refine settles_of_wait (world.clock + duration) rfl trivial ?_ ?_
    · simp [Wait.isAwake, World.isDue, World.setAlarm]
    · exact settles_of_answered rfl unpaused

/-- A lock that is not to be had is given up at the latest when its time is over. -/
theorem settles_of_acquire {lock : String} {timeout : Nat} {next : LockAnswer → Program α}
    (unpaused : session.control.paused = false) :
    Settles registry next ((Request.acquire lock timeout).carryOut registry session world) := by
  simp only [Request.carryOut]
  split
  · exact settles_of_answered rfl unpaused
  · simp only [Session.tryLock]
    split
    · exact settles_of_answered rfl unpaused
    · split
      · exact settles_of_answered rfl unpaused
      · split
        · exact settles_of_answered rfl unpaused
        · rename_i notInterrupted
          have calm := Bool.eq_false_iff.mpr notInterrupted
          refine settles_of_wait (world.clock + timeout) rfl calm ?_ ?_
          · simp [Wait.isAwake, World.isDue, World.setAlarm, World.callLock, World.heed]
          · simp only [Wait.resume, calm, World.heed_false, Session.leaveLine]
            rw [if_neg Bool.false_ne_true]
            split
            · exact settles_of_answered rfl unpaused
            · exact settles_of_answered rfl unpaused

/-- A request that gets an answer at all gets it without any signal. -/
theorem settles_of_carryOut (neverPauses : registry.NeverPauses)
    (unpaused : session.control.paused = false)
    (kind : request.isTimeless ∨ request = .now ∨ ∃ results, request = .publish results)
    (ends : (request.carryOut registry session world).alone.isSome) :
    Settles registry next (request.carryOut registry session world) := by
  rcases kind with timeless | rfl | ⟨results, rfl⟩
  · cases request with
    | elapsed => exact nomatch timeless
    | now => exact nomatch timeless
    | publish results => exact nomatch timeless
    | openInteraction => exact nomatch timeless
    | awaitInteraction => exact nomatch timeless
    | cancelRun => exact nomatch timeless
    | awaitResume => exact nomatch timeless
    | beginJob => exact nomatch timeless
    | release lock => exact settles_of_answered rfl unpaused
    | verify check property => exact settles_of_answered rfl unpaused
    | moveTo cursor => exact settles_of_answered rfl unpaused
    | noteStart => exact settles_of_answered rfl unpaused
    | endJob ending =>
        refine settles_of_answered rfl (Session.paused_finalize ?_ _ _ _)
        cases ending with
        | completed => exact (Session.paused_notice session).trans unpaused
        | interrupted => exact unpaused
        | crashed => exact unpaused
    | checkpoint => exact settles_of_checkpoint unpaused
    | sleep duration => exact settles_of_sleep unpaused
    | acquire lock timeout => exact settles_of_acquire unpaused
    | perform call =>
        simp only [Request.carryOut] at ends ⊢
        split at ends
        · rename_i heeded
          rw [if_pos heeded]
          exact settles_of_answered rfl unpaused
        · rename_i notHeeded
          rw [if_neg notHeeded]
          refine settles_of_request (.performing call) rfl ?_ unpaused ends
          split
          · rename_i backend hasBackend
            exact neverPauses.backends hasBackend call
          · trivial
    | execute call =>
        simp only [Request.carryOut] at ends ⊢
        split at ends
        · rename_i heeded
          rw [if_pos heeded]
          exact settles_of_answered rfl unpaused
        · rename_i notHeeded
          rw [if_neg notHeeded]
          refine settles_of_request (.executing call) rfl ?_ unpaused ends
          split
          · rename_i runner hasRunner
            exact neverPauses.runner hasRunner call
          · trivial
  · exact settles_of_answered rfl unpaused
  · exact settles_of_answered rfl unpaused

/-! ### Runs -/

section Returns

variable (registry)

/-- Without any signal the task comes to its end. -/
def Returns (first : Situation ω α) : Prop :=
  ∃ trace last value, Solo registry NoSignal first trace last ∧ last.stage = .done value

end Returns

theorem Returns.of_solo {first middle : Situation ω α} {trace : List Request}
    (course : Solo registry NoSignal first trace middle) (returns : middle.Returns registry) :
    first.Returns registry := by
  rcases returns with ⟨further, last, value, goesOn, returned⟩
  exact ⟨trace ++ further, last, value, course.trans goesOn, returned⟩

/-- A run that comes to an end if it has the world to itself needs no signal for it. -/
theorem returns_of_alone {same : α → α → Prop} {program : Program α}
    (alike : program.Alike same program) (neverPauses : registry.NeverPauses)
    (unpaused : session.control.paused = false)
    (ends : (program.alone registry session world).isSome) :
    Returns registry ⟨session, world, .ready program⟩ := by
  induction program generalizing session world with
  | done value => exact ⟨[], _, value, Solo.start.finish, rfl⟩
  | ask request next ih =>
      rcases Option.isSome_iff_exists.mp ends with ⟨ended, alone⟩
      rcases Option.bind_eq_some_iff.mp alone with ⟨expected, carried, goesOn⟩
      have carriedEnds : (request.carryOut registry session world).alone.isSome := by
        rw [carried]
        rfl
      have settles : Settles registry next (request.carryOut registry session world) :=
        settles_of_carryOut neverPauses unpaused alike.timeless carriedEnds
      rcases settles with
        ⟨trace, settled, course, stillUnpaused, other, otherCarried, sameSettled⟩
      obtain rfl := Option.some.inj (carried.symm.trans otherCarried)
      have sameRest := (alike.next settled.answer).alone registry sameSettled.session
        sameSettled.world
      have restEnds :
          ((next settled.answer).alone registry settled.session settled.world).isSome := by
        rcases Option.map_eq_some_iff.mp goesOn with ⟨rest, restAlone, -⟩
        rw [sameSettled.answer] at restAlone
        rw [restAlone] at sameRest
        generalize (next settled.answer).alone registry settled.session settled.world =
          otherRest at sameRest
        cases sameRest with
        | some => rfl
      refine .of_solo (Solo.start.ask.trans course) ?_
      exact ih settled.answer (alike.next settled.answer) stillUnpaused restEnds

/-- The task of a new job that is not paused comes to its end if its program has one. -/
theorem returns_of_begins {same : α → α → Prop} {next : Request.beginJob.Answer → Program α}
    (alike : (next none).Alike same (next none)) (neverPauses : registry.NeverPauses)
    (unpaused : session.control.paused = false)
    (isNew : session.control.status = .initialized)
    (ends : (Program.alone registry (.ask .beginJob next) session world).isSome) :
    Returns registry ⟨session, world, .ready (.ask .beginJob next)⟩ := by
  have begins := Request.carryOut_beginJob registry world isNew
  simp only [Program.alone, begins, Carried.alone, Option.bind_some, Option.isSome_map] at ends
  have stillUnpaused : (session.begun world.now).control.paused = false := unpaused
  have begun : Solo registry NoSignal ⟨session, world, .ready (.ask .beginJob next)⟩ [.beginJob]
      ⟨session.begun world.now, world, .ready (next none)⟩ := by
    have asked : Solo registry NoSignal ⟨session, world, .ready (.ask .beginJob next)⟩ _ _ :=
      Solo.start.ask
    rw [begins] at asked
    exact asked
  exact .of_solo begun (returns_of_alone alike neverPauses stillUnpaused ends)

end Situation

end TestEngine
