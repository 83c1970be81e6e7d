import Mathlib.Data.List.Chain
import TestEngine.Proofs.Lock.Step
import TestEngine.Proofs.Script.Holding

/-!
# Performances

A performance is what a task goes through that is alone: it is polled, its client sends signals, and
time passes, but never beyond the moment that the task has set its alarm to. It is fixed by these
beats and by nothing else, so two tasks can be compared that are played on the same beats. The
history of a performance tells the clock at which each request was made and answered.
-/

namespace TestEngine

variable {ω α : Type}

/-! ### Beats -/

/-- When a request was made and when it was answered, and whether the run had been interrupted by
then. -/
structure Span where
  asked : Nat
  answered : Nat
  interrupted : Bool
  deriving DecidableEq

/-- What happens to a task that is alone. -/
inductive Beat where
  | poll
  | signal (sent : Signal)
  /-- Some milliseconds pass, or as many as there are up to the task's alarm. -/
  | pass (duration : Nat)

/-- A task that is alone, with what it has gone through. -/
structure Performance (ω α : Type) where
  situation : Situation ω α
  /-- The clock when the task made the request that it waits for. -/
  since : Nat
  history : List (Exchange Span)

/-- The performance of a program that has not begun yet. -/
def Program.performance (program : Program α) (session : Session) (world : World ω) :
    Performance ω α :=
  ⟨⟨session, world, .ready program⟩, world.clock, []⟩

/-- Carries out the requests of a program up to the first that has to wait. -/
def Program.perform (registry : Registry ω) :
    Program α → Session → World ω → List (Exchange Span) → Performance ω α
  | .done value, session, world, history => ⟨⟨session, world, .done value⟩, world.clock, history⟩
  | .ask request next, session, world, history =>
    let carried := request.carryOut registry session world
    match carried.outcome with
    | .answered answer =>
      (next answer).perform registry carried.session carried.world
        (history ++ [⟨request, answer, world.clock, world.clock, session.control.interrupted⟩])
    | .waiting wait => ⟨⟨carried.session, carried.world, .waiting wait next⟩, world.clock, history⟩

/-- The clock once some milliseconds have passed. -/
def Situation.clockAfter (situation : Situation ω α) (duration : Nat) : Nat :=
  let moment := situation.world.clock + duration
  match situation.stage.alarm? with
  | some alarm => max situation.world.clock (min moment alarm.due)
  | none => moment

namespace Performance

variable (registry : Registry ω)

def poll (performance : Performance ω α) : Performance ω α :=
  let ⟨session, world, stage⟩ := performance.situation
  match stage with
  | .ready program => program.perform registry session world performance.history
  | @Stage.waiting _ _ request wait next =>
    if wait.isAwake session world then
      let carried := wait.resume session world
      match carried.outcome with
      | .answered answer =>
        (next answer).perform registry carried.session carried.world (performance.history ++
          [⟨request, answer, performance.since, world.clock, session.control.interrupted⟩])
      | .waiting wait =>
        { performance with situation := ⟨carried.session, carried.world, .waiting wait next⟩ }
    else performance
  | .done _ => performance

def beat (performance : Performance ω α) : Beat → Performance ω α
  | .poll => performance.poll registry
  | .signal sent =>
    let situation := performance.situation
    { performance with
      situation := { situation with session := situation.session.mapControl sent.act } }
  | .pass duration =>
    let situation := performance.situation
    { performance with
      situation := { situation with
        world := { situation.world with clock := situation.clockAfter duration } } }

def play (performance : Performance ω α) (beats : List Beat) : Performance ω α :=
  beats.foldl (fun performance beat => performance.beat registry beat) performance

end Performance

section Perform

variable {registry : Registry ω} {request : Request} {next : request.Answer → Program α}
  {session after : Session} {world left : World ω}

theorem Program.perform_of_answered {answer : request.Answer}
    (carries : request.carryOut registry session world = ⟨after, left, .answered answer⟩)
    (history : List (Exchange Span)) :
    (Program.ask request next).perform registry session world history =
      (next answer).perform registry after left (history ++
        [⟨request, answer, world.clock, world.clock, session.control.interrupted⟩]) := by
  simp only [perform, carries]

end Perform

/-- To perform a program is to carry it out. -/
theorem Program.perform_situation (registry : Registry ω) (program : Program α) (session : Session)
    (world : World ω) (history : List (Exchange Span)) :
    (program.perform registry session world history).situation =
      program.advance registry session world := by
  induction program generalizing session world history with
  | done value => rfl
  | ask request next ih =>
      simp only [perform, advance]
      cases outcome : (request.carryOut registry session world).outcome with
      | answered answer => exact ih answer _ _ _
      | waiting wait => rfl

theorem Performance.poll_situation (registry : Registry ω) (performance : Performance ω α) :
    let situation := performance.situation
    (performance.poll registry).situation =
      situation.stage.poll registry situation.session situation.world := by
  rcases performance with ⟨⟨session, world, program | @⟨request, wait, next⟩ | value⟩, since,
    history⟩
  · exact program.perform_situation registry session world history
  · simp only [poll, Stage.poll]
    split
    · cases outcome : (wait.resume session world).outcome with
      | answered answer => exact (next answer).perform_situation registry _ _ _
      | waiting wait => rfl
    · rfl
  · rfl

/-! ### The induction over a performance -/

/-- What a property of resting tasks and one of running programs say of a request that was carried
out as far as it goes without waiting. -/
def Carried.Performs (running : Session → World ω → List (Exchange Span) → Program α → Prop)
    (resting : Performance ω α → Prop) {request : Request} (carried : Carried ω request)
    (next : request.Answer → Program α) (span : Span) (history : List (Exchange Span)) : Prop :=
  match carried.outcome with
  | .answered answer =>
    running carried.session carried.world (history ++ [⟨request, answer, span⟩]) (next answer)
  | .waiting wait => resting ⟨⟨carried.session, carried.world, .waiting wait next⟩, span.asked,
      history⟩

theorem Carried.Performs.and
    {running other : Session → World ω → List (Exchange Span) → Program α → Prop}
    {resting otherResting : Performance ω α → Prop} {request : Request}
    {carried : Carried ω request} {next : request.Answer → Program α} {span : Span}
    {history : List (Exchange Span)} (performs : carried.Performs running resting next span history)
    (otherPerforms : carried.Performs other otherResting next span history) :
    carried.Performs
      (fun session world history rest =>
        running session world history rest ∧ other session world history rest)
      (fun performance => resting performance ∧ otherResting performance) next span history := by
  rw [Performs] at performs otherPerforms ⊢
  cases outcome : carried.outcome with
  | answered answer =>
      rw [outcome] at performs otherPerforms
      exact ⟨performs, otherPerforms⟩
  | waiting wait =>
      rw [outcome] at performs otherPerforms
      exact ⟨performs, otherPerforms⟩

/-- The cases of a proof that a performance keeps an invariant. While the task is polled, the
invariant may say something else of the program that it runs. -/
structure PerformanceLaw (registry : Registry ω)
    (running : Session → World ω → List (Exchange Span) → Program α → Prop)
    (resting : Performance ω α → Prop) : Prop where
  start {session : Session} {world : World ω} {program : Program α} {since : Nat}
    {history : List (Exchange Span)}
    (kept : resting ⟨⟨session, world, .ready program⟩, since, history⟩) :
    running session world history program
  finish {session : Session} {world : World ω} {value : α} {history : List (Exchange Span)}
    (kept : running session world history (.done value)) :
    resting ⟨⟨session, world, .done value⟩, world.clock, history⟩
  ask {session : Session} {world : World ω} {request : Request}
    {next : request.Answer → Program α} {history : List (Exchange Span)}
    (kept : running session world history (.ask request next)) :
    (request.carryOut registry session world).Performs running resting next
      ⟨world.clock, world.clock, session.control.interrupted⟩ history
  resume {session : Session} {world : World ω} {request : Request} {wait : Wait ω request}
    {next : request.Answer → Program α} {since : Nat} {history : List (Exchange Span)}
    (kept : resting ⟨⟨session, world, .waiting wait next⟩, since, history⟩)
    (awake : wait.isAwake session world = true) :
    (wait.resume session world).Performs running resting next
      ⟨since, world.clock, session.control.interrupted⟩ history
  signal {performance : Performance ω α} (kept : resting performance) (sent : Signal) :
    resting (performance.beat registry (.signal sent))
  pass {performance : Performance ω α} (kept : resting performance) (duration : Nat) :
    resting (performance.beat registry (.pass duration))

namespace PerformanceLaw

variable {registry : Registry ω}
  {running : Session → World ω → List (Exchange Span) → Program α → Prop}
  {resting : Performance ω α → Prop}

theorem perform (law : PerformanceLaw registry running resting) {program : Program α}
    {session : Session} {world : World ω} {history : List (Exchange Span)}
    (kept : running session world history program) :
    resting (program.perform registry session world history) := by
  induction program generalizing session world history with
  | done value => exact law.finish kept
  | ask request next ih =>
      have keptOn := law.ask kept
      rw [Carried.Performs] at keptOn
      rw [Program.perform]
      cases outcome : (request.carryOut registry session world).outcome with
      | answered answer =>
          rw [outcome] at keptOn
          exact ih answer keptOn
      | waiting wait =>
          rw [outcome] at keptOn
          exact keptOn

theorem poll (law : PerformanceLaw registry running resting) {performance : Performance ω α}
    (kept : resting performance) : resting (performance.poll registry) := by
  rcases performance with ⟨⟨session, world, program | @⟨request, wait, next⟩ | value⟩, since,
    history⟩
  · exact law.perform (law.start kept)
  · simp only [Performance.poll]
    split
    · rename_i awake
      have keptOn := law.resume kept awake
      rw [Carried.Performs] at keptOn
      cases outcome : (wait.resume session world).outcome with
      | answered answer =>
          rw [outcome] at keptOn
          exact law.perform keptOn
      | waiting wait =>
          rw [outcome] at keptOn
          exact keptOn
    · exact kept
  · exact kept

/-- What each beat keeps, a whole performance keeps. -/
theorem play (law : PerformanceLaw registry running resting) {performance : Performance ω α}
    (kept : resting performance) (beats : List Beat) :
    resting (performance.play registry beats) := by
  induction beats generalizing performance with
  | nil => exact kept
  | cons beat rest ih =>
      refine ih ?_
      cases beat with
      | poll => exact law.poll kept
      | signal sent => exact law.signal kept sent
      | pass duration => exact law.pass kept duration

end PerformanceLaw

/-! ### The clock -/

/-- Whether a task that is alone can come from one situation to another. -/
def Situation.ComesTo (registry : Registry ω) (first last : Situation ω α) : Prop :=
  ∃ trace, Situation.Solo registry (fun _ => True) first trace last

/-- Whether an exchange begins at the clock at which another one has ended. -/
def Exchange.Follows (before after : Exchange Span) : Prop :=
  after.note.asked = before.note.answered

/-- A history without breaks that has ended at some clock. -/
structure Exchange.Unbroken (history : List (Exchange Span)) (clock : Nat) : Prop where
  chain : history.IsChain Follows
  ends : ∀ last ∈ history.getLast?, last.note.answered = clock

def Performance.Unbroken (performance : Performance ω α) : Prop :=
  match performance.situation.stage with
  | .ready _ => performance.history = []
  | .waiting _ _ => Exchange.Unbroken performance.history performance.since
  | .done _ => performance.history.IsChain Exchange.Follows

theorem Exchange.Unbroken.snoc {request : Request} {answer : request.Answer} {span : Span}
    {history : List (Exchange Span)} (unbroken : Exchange.Unbroken history span.asked) :
    Exchange.Unbroken (history ++ [⟨request, answer, span⟩]) span.answered := by
  refine ⟨List.isChain_append.mpr ⟨unbroken.chain, .singleton _, ?_⟩, by simp⟩
  intro last isLast first isFirst
  obtain rfl : ⟨request, answer, span⟩ = first := by simpa using isFirst
  exact (unbroken.ends last isLast).symm

section Origin

variable (registry : Registry ω)

end Origin

theorem Performance.Unbroken.chain {performance : Performance ω α}
    (unbroken : performance.Unbroken) : performance.history.IsChain Exchange.Follows := by
  rcases performance with ⟨⟨session, world, program | ⟨wait, next⟩ | value⟩, since, history⟩
  · obtain rfl : history = [] := unbroken
    exact .nil
  · exact Exchange.Unbroken.chain unbroken
  · exact unbroken

end TestEngine
