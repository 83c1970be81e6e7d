import TestEngine.Proofs.Pause.Parked
import TestEngine.Proofs.Pause.Steady

/-!
# Solo courses

A run is shown as paused only while it waits at a checkpoint: it shows so itself when it begins to
wait, and takes it back when it goes on. A steady task that has returned is therefore shown by the
status that it ended with, whoever has paused it meanwhile.

A solo course is one of a task that is alone. The task carries out its requests one by one, its
client sends signals of some kinds between any two of them, and time passes. Nothing else happens.

A steady task comes to the same in every solo course that does not interrupt it: the calls that it
has made and what it is still to come to make up what it was to come to in the beginning, and each
step keeps that.
-/

namespace TestEngine

variable {ω α : Type} {same : α → α → Prop} {session : Session} {world : World ω}

/-! ### Requests -/

/-- Of the waits for timeless requests only one at a checkpoint is for the end of a pause. -/
theorem Wait.isParked_of_isTimeless {request : Request} {wait : Wait ω request}
    (timeless : request.isTimeless) (isParked : wait.isParked) : request = .checkpoint := by
  cases wait with
  | checkpoint => rfl
  | pause => exact nomatch timeless
  | interaction => exact nomatch timeless
  | sleep alarm seen => exact nomatch isParked
  | line ticket alarm => exact nomatch isParked
  | performing activity alarm => exact nomatch isParked
  | executing activity alarm lines => exact nomatch isParked

/-- Of the requests of a steady task only a checkpoint that has to wait shows it as paused. -/
theorem Request.status_carryOut (request : Request) (registry : Registry ω) (world : World ω)
    (kind : request.isTimeless ∨ request = .now ∨ ∃ results, request = .publish results)
    (notPaused : session.control.status ≠ .paused)
    (isPaused : (request.carryOut registry session world).session.control.status = .paused) :
    request = .checkpoint ∧
      ∀ answer, (request.carryOut registry session world).outcome ≠ .answered answer := by
  rcases kind with timeless | rfl | ⟨results, rfl⟩
  · have keeps := request.carryOut_parks registry world .done notPaused
    rw [Carried.Keeps] at keeps
    cases outcome : (request.carryOut registry session world).outcome with
    | answered answer =>
        rw [outcome] at keeps
        exact absurd isPaused keeps
    | waiting wait =>
        rw [outcome] at keeps
        refine ⟨wait.isParked_of_isTimeless timeless (keeps.shown isPaused), ?_⟩
        rintro answer ⟨⟩
  · exact absurd isPaused notPaused
  · exact absurd isPaused notPaused

/-- A run that goes on is not shown as paused any more. -/
theorem Wait.status_resume {request : Request} (wait : Wait ω request) (world : World ω)
    (timeless : request.isTimeless)
    (onlyThere : session.control.status = .paused → request = .checkpoint) :
    (wait.resume session world).session.control.status ≠ .paused := by
  have isParked : session.control.status = .paused → wait.isParked := by
    intro isPaused
    obtain rfl := onlyThere isPaused
    cases wait
    rfl
  have keeps := wait.resume_parks world .done isParked
  rw [Carried.Keeps] at keeps
  cases outcome : (wait.resume session world).outcome with
  | answered answer =>
      rw [outcome] at keeps
      exact keeps
  | waiting again =>
      rw [outcome] at keeps
      intro isPaused
      -- Whoever waited at a checkpoint does not wait there again.
      obtain rfl := again.isParked_of_isTimeless timeless (keeps.shown isPaused)
      cases wait
      cases outcome

/-! ### Tasks -/

/-- Whether a task waits at a checkpoint. -/
def Stage.AtCheckpoint : Stage ω α → Prop
  | @waiting _ _ request _ _ => request = .checkpoint
  | _ => False

/-- A task that is shown as paused waits at a checkpoint. -/
def Stage.ShowsPause (session : Session) (stage : Stage ω α) : Prop :=
  session.control.status = .paused → stage.AtCheckpoint

theorem Stage.ShowsPause.signal {stage : Stage ω α} (shown : stage.ShowsPause session)
    (signal : Signal) : stage.ShowsPause (session.mapControl signal.act) := by
  intro isPaused
  rcases Decidable.em (session.control.status = .paused) with wasPaused | notPaused
  · exact shown wasPaused
  · exact absurd isPaused (Session.status_signal notPaused)

/-- What a steady task asks for shows it as paused only if it has to wait for it at a checkpoint. -/
theorem Stage.ShowsPause.ask {request : Request} {next : request.Answer → Program α}
    (shown : (Stage.ready (.ask request next) : Stage ω α).ShowsPause session)
    (steady : (Stage.ready (.ask request next) : Stage ω α).Steady same session)
    (registry : Registry ω) (world : World ω) :
    let after := (request.carryOut registry session world).situation next
    after.stage.ShowsPause after.session := by
  cases steady with
  | begins isNew alike =>
      rw [Request.carryOut_beginJob registry world isNew]
      exact fun isPaused => nomatch isPaused
  | ready alike =>
      have isShown := request.status_carryOut registry world alike.timeless shown
      rw [Carried.situation]
      cases outcome : (request.carryOut registry session world).outcome with
      | answered answer => exact fun isPaused => (isShown isPaused).2 answer outcome
      | waiting wait => exact fun isPaused => (isShown isPaused).1

theorem Stage.ShowsPause.resume {request : Request} {wait : Wait ω request}
    {next : request.Answer → Program α}
    (shown : (Stage.waiting wait next : Stage ω α).ShowsPause session)
    (steady : (Stage.waiting wait next : Stage ω α).Steady same session) (world : World ω) :
    let after := (wait.resume session world).situation next
    after.stage.ShowsPause after.session := by
  cases steady with
  | waiting timeless _ _ =>
      have notPaused := wait.status_resume world timeless shown
      rw [Carried.situation]
      cases (wait.resume session world).outcome with
      | answered answer => exact fun isPaused => notPaused isPaused
      | waiting next => exact fun isPaused => absurd isPaused notPaused

theorem Session.status_eq_of_core_eq {other : Session} (sameSession : session.core = other.core)
    (notPaused : session.control.status ≠ .paused)
    (otherNotPaused : other.control.status ≠ .paused) :
    session.control.status = other.control.status := by
  have sameStatus : session.control.status.core = other.control.status.core :=
    congrArg Control.status (Session.core_eq_iff.mp sameSession).2.1
  cases status : session.control.status <;> cases otherStatus : other.control.status <;>
    simp_all [JobStatus.core]

/-! ## Courses of a task that is alone -/

/-- The clock has gone on; those who were woken count no more. -/
structure World.Passes (before after : World ω) : Prop where
  clock : before.clock ≤ after.clock
  same : after = { before with clock := after.clock, handed := after.handed }

theorem World.Passes.core_eq {before after : World ω} (passes : before.Passes after) :
    after.core = before.core := by
  rw [passes.same]
  rfl

namespace Situation

section Solo

variable (registry : Registry ω) (permits : Signal → Prop)

/-- A course of a task that is alone, with what it asks. -/
inductive Solo : Situation ω α → List Request → Situation ω α → Prop
  | start {situation : Situation ω α} : Solo situation [] situation
  | ask {first : Situation ω α} {trace : List Request} {session : Session} {world : World ω}
      {request : Request} {next : request.Answer → Program α}
      (course : Solo first trace ⟨session, world, .ready (.ask request next)⟩) :
      Solo first (trace ++ [request]) ((request.carryOut registry session world).situation next)
  | resume {first : Situation ω α} {trace : List Request} {session : Session} {world : World ω}
      {request : Request} {wait : Wait ω request} {next : request.Answer → Program α}
      (course : Solo first trace ⟨session, world, .waiting wait next⟩)
      (awake : wait.isAwake session world) :
      Solo first trace ((wait.resume session world).situation next)
  | finish {first : Situation ω α} {trace : List Request} {session : Session} {world : World ω}
      {value : α} (course : Solo first trace ⟨session, world, .ready (.done value)⟩) :
      Solo first trace ⟨session, world, .done value⟩
  | signal {first last : Situation ω α} {trace : List Request} (course : Solo first trace last)
      {signal : Signal} (permitted : permits signal) :
      Solo first trace { last with session := last.session.mapControl signal.act }
  | pass {first last : Situation ω α} {trace : List Request} (course : Solo first trace last)
      {world : World ω} (passes : last.world.Passes world) :
      Solo first trace { last with world }

end Solo

variable {registry : Registry ω} {permits : Signal → Prop} {first middle last : Situation ω α}
  {trace : List Request}

theorem Solo.trans {before after : List Request}
    (earlier : Solo registry permits first before middle)
    (later : Solo registry permits middle after last) :
    Solo registry permits first (before ++ after) last := by
  induction later with
  | start => simpa using earlier
  | ask _ ih =>
      rw [← List.append_assoc]
      exact ih.ask
  | resume _ awake ih => exact ih.resume awake
  | finish _ ih => exact ih.finish
  | signal _ permitted ih => exact ih.signal permitted
  | pass _ passes ih => exact ih.pass passes

/-! ### What does not change in the course of things -/

theorem rel_runEnd_trans {same : α → α → Prop}
    (transitive : ∀ a b c, same a b → same b c → same a c)
    {before between after : Option (RunEnd ω α)}
    (earlier : Option.Rel (RunEnd.Alike same) before between)
    (later : Option.Rel (RunEnd.Alike same) between after) :
    Option.Rel (RunEnd.Alike same) before after :=
  rel_trans (fun _ _ _ alike further => ⟨alike.calls.trans further.calls,
    transitive _ _ _ alike.value further.value, alike.session.trans further.session,
    alike.world.trans further.world⟩) earlier later

/-- What is known of a task that has come somewhere from a situation in which it was steady. -/
structure Solo.Reached (same : α → α → Prop) (registry : Registry ω) (origin : Situation ω α)
    (trace : List Request) (situation : Situation ω α) : Prop where
  steady : situation.stage.Steady same situation.session
  shown : situation.stage.ShowsPause situation.session
  alone : Option.Rel (RunEnd.Alike same) (origin.alone registry)
    ((situation.alone registry).map (RunEnd.behind (callsOf trace)))

theorem Solo.Reached.start (steady : first.stage.Steady same first.session)
    (shown : first.stage.ShowsPause first.session) :
    Solo.Reached same registry first [] first := by
  refine ⟨steady, shown, ?_⟩
  rw [callsOf, List.filter_nil, RunEnd.behind_nil]
  exact steady.alone_congr registry rfl rfl

theorem Solo.Reached.ask {request : Request} {next : request.Answer → Program α}
    (reached : Solo.Reached same registry first trace
      ⟨session, world, .ready (.ask request next)⟩) :
    Solo.Reached same registry first (trace ++ [request])
      ((request.carryOut registry session world).situation next) := by
  refine ⟨reached.steady.ask registry world, reached.shown.ask reached.steady registry world, ?_⟩
  rw [callsOf_append, RunEnd.behind_append, Program.alone_ask]
  exact reached.alone

theorem Solo.Reached.resume {request : Request} {wait : Wait ω request}
    {next : request.Answer → Program α}
    (reached : Solo.Reached same registry first trace ⟨session, world, .waiting wait next⟩)
    (awake : wait.isAwake session world) :
    Solo.Reached same registry first trace ((wait.resume session world).situation next) := by
  refine ⟨reached.steady.resume world, reached.shown.resume reached.steady world, ?_⟩
  rw [Stage.alone_resume registry next awake reached.steady.calm]
  exact reached.alone

/-- Whatever keeps the cores keeps what the task comes to. -/
theorem Solo.Reached.drift (transitive : ∀ a b c, same a b → same b c → same a c)
    (reached : Solo.Reached same registry first trace last)
    (sameSession : last.session.core = session.core) (sameWorld : last.world.core = world.core)
    (shown : last.stage.ShowsPause session) :
    Solo.Reached same registry first trace ⟨session, world, last.stage⟩ := by
  refine ⟨reached.steady.congr sameSession, shown, rel_runEnd_trans transitive reached.alone ?_⟩
  exact rel_map (reached.steady.alone_congr registry sameSession sameWorld)
    fun _ _ alike => alike.behind _

/-- In a solo course that does not interrupt it a steady task comes to what it was to come to. -/
theorem Solo.reached (transitive : ∀ a b c, same a b → same b c → same a c)
    (course : Solo registry permits first trace last)
    (steady : first.stage.Steady same first.session) (shown : first.stage.ShowsPause first.session)
    (peaceful : ∀ signal, permits signal → signal ≠ .interrupt) :
    Solo.Reached same registry first trace last := by
  induction course with
  | start => exact .start steady shown
  | ask _ ih => exact ih.ask
  | resume _ awake ih => exact ih.resume awake
  | finish _ ih =>
      rcases ih with ⟨steadyLast, shownLast, alone⟩
      exact ⟨steadyLast.finish, fun isPaused => shownLast isPaused, alone⟩
  | @signal last trace _ signal permitted ih =>
      refine ih.drift transitive ?_ rfl (ih.shown.signal signal)
      rw [Session.core_signal, if_neg (peaceful signal permitted)]
  | pass _ passes ih => exact ih.drift transitive rfl passes.core_eq.symm ih.shown

/-- A task that has returned has come to what it was to come to. -/
theorem Solo.alone_of_returned (transitive : ∀ a b c, same a b → same b c → same a c)
    (course : Solo registry permits first trace last)
    (steady : first.stage.Steady same first.session) (shown : first.stage.ShowsPause first.session)
    (peaceful : ∀ signal, permits signal → signal ≠ .interrupt) {value : α}
    (returned : last.stage = .done value) :
    ∃ ended, first.alone registry = some ended ∧ ended.calls = callsOf trace ∧
      same ended.value value ∧ ended.session.core = last.session.core ∧
        last.session.control.status ≠ .paused := by
  rcases course.reached transitive steady shown peaceful with ⟨-, shownLast, alone⟩
  rcases last with ⟨session, world, stage⟩
  obtain rfl : stage = .done value := returned
  generalize first.alone registry = ended at alone
  cases alone with
  | some alike =>
      exact ⟨_, rfl, alike.calls.trans (List.append_nil _), alike.value, alike.session,
        fun isPaused => shownLast isPaused⟩

end Situation

end TestEngine
