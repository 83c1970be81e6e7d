import TestEngine.Proofs.Machine.Timeline
import TestEngine.Proofs.Pause.Scheduled

/-!
# Dialogues

A dialogue is a history of exchanges as the capabilities of one registry and the clients of one
session can bring it about. Clients send signals before each request and while it waits, and what
runs share may change in any way meanwhile; but the session changes only by the signals and by what
the task itself asks. The note of an exchange tells the signals that were sent since the one before.
Whatever a machine does around a task, the task goes through a dialogue.
-/

namespace TestEngine

variable {ω α : Type}

/-! ### Signals -/

/-- The session once clients have sent signals. -/
def Session.after (session : Session) (signals : List Signal) : Session :=
  signals.foldl (fun session sent => session.mapControl sent.act) session

namespace Session

variable (session : Session)

@[simp]
theorem after_nil : session.after [] = session := rfl

theorem after_append (earlier later : List Signal) :
    session.after (earlier ++ later) = (session.after earlier).after later :=
  List.foldl_append

theorem after_concat (signals : List Signal) (sent : Signal) :
    session.after (signals ++ [sent]) = (session.after signals).mapControl sent.act :=
  session.after_append signals [sent]

end Session

/-! ### Exchanges -/

/-- How a wait ends while clients send signals: with the answer, and with the session that the task
goes on with. -/
inductive Wait.Concludes {request : Request} :
    Wait ω request → Session → List Signal → request.Answer → Session → Prop
  | answered {wait : Wait ω request} {session : Session} {signals : List Signal} {world : World ω}
      {answer : request.Answer} (awake : wait.isAwake (session.after signals) world = true)
      (answered : (wait.resume (session.after signals) world).outcome = .answered answer) :
      Concludes wait session signals answer (wait.resume (session.after signals) world).session
  | again {wait next : Wait ω request} {session last : Session} {signals later : List Signal}
      {world : World ω} {answer : request.Answer}
      (awake : wait.isAwake (session.after signals) world = true)
      (waits : (wait.resume (session.after signals) world).outcome = .waiting next)
      (concludes : Concludes next (wait.resume (session.after signals) world).session later answer
        last) : Concludes wait session (signals ++ later) answer last

theorem Wait.Concludes.of_after {request : Request} {wait : Wait ω request}
    {session last : Session} {signals later : List Signal} {answer : request.Answer}
    (concludes : wait.Concludes (session.after signals) later answer last) :
    wait.Concludes session (signals ++ later) answer last := by
  cases concludes with
  | answered awake answered =>
      rw [← Session.after_append] at awake answered ⊢
      exact .answered awake answered
  | again awake waits concludes =>
      rw [← Session.after_append] at awake waits concludes
      rw [← List.append_assoc]
      exact .again awake waits concludes

/-- How a request gets its answer, with the signals that are sent before it is made or while it
waits. -/
def Request.Gets (registry : Registry ω) (request : Request) (session : Session)
    (signals : List Signal) (answer : request.Answer) (last : Session) : Prop :=
  ∃ before later world, signals = before ++ later ∧
    let carried := request.carryOut registry (session.after before) world
    (carried.outcome = .answered answer ∧ later = [] ∧ last = carried.session) ∨
      ∃ wait, carried.outcome = .waiting wait ∧ wait.Concludes carried.session later answer last

/-- A request that never waits is answered as it is made. -/
theorem Request.Gets.atOnce {registry : Registry ω} {request : Request} {session last : Session}
    {signals : List Signal} {answer : request.Answer}
    (gets : request.Gets registry session signals answer last)
    (neverWaits : ∀ session world (wait : Wait ω request),
      (request.carryOut registry session world).outcome ≠ .waiting wait) :
    ∃ world, let carried := request.carryOut registry (session.after signals) world
      carried.outcome = .answered answer ∧ last = carried.session := by
  rcases gets with ⟨before, later, world, rfl, ⟨answered, rfl, isLast⟩ | ⟨wait, waits, -⟩⟩
  · rw [List.append_nil]
    exact ⟨world, answered, isLast⟩
  · exact absurd waits (neverWaits _ _ _)

/-- Nothing comes of reading the calendar. -/
theorem Request.Gets.now {registry : Registry ω} {session last : Session} {signals : List Signal}
    {instant : Calendar.Instant}
    (gets : Request.now.Gets registry session signals instant last) :
    last = session.after signals := by
  rcases gets.atOnce fun _ _ _ waits => nomatch waits with ⟨world, -, isLast⟩
  exact isLast

/-- A history as the capabilities of a registry and the clients of a session can bring it about. -/
inductive Dialogue (registry : Registry ω) :
    Session → List (Exchange (List Signal)) → Session → Prop
  | nil {session : Session} : Dialogue registry session [] session
  | cons {first middle last : Session} {request : Request} {answer : request.Answer}
      {signals : List Signal} {history : List (Exchange (List Signal))}
      (gets : request.Gets registry first signals answer middle)
      (rest : Dialogue registry middle history last) :
      Dialogue registry first (⟨request, answer, signals⟩ :: history) last

namespace Dialogue

variable {registry : Registry ω} {first last : Session}
  {history earlier later : List (Exchange (List Signal))}

@[simp]
theorem nil_iff : Dialogue registry first [] last ↔ last = first := by
  constructor
  · rintro ⟨⟩
    rfl
  · rintro rfl
    exact nil

theorem cons_iff {request : Request} {answer : request.Answer} {signals : List Signal} :
    Dialogue registry first (⟨request, answer, signals⟩ :: history) last ↔
      ∃ middle, request.Gets registry first signals answer middle ∧
        Dialogue registry middle history last := by
  constructor
  · rintro (_ | ⟨gets, rest⟩)
    exact ⟨_, gets, rest⟩
  · rintro ⟨middle, gets, rest⟩
    exact .cons gets rest

theorem append_iff :
    Dialogue registry first (earlier ++ later) last ↔
      ∃ middle, Dialogue registry first earlier middle ∧ Dialogue registry middle later last := by
  induction earlier generalizing first with
  | nil => simp
  | cons exchange earlier ih =>
      rcases exchange with ⟨request, answer, signals⟩
      simp only [List.cons_append, cons_iff, ih]
      constructor
      · rintro ⟨reached, gets, middle, before, after⟩
        exact ⟨middle, ⟨reached, gets, before⟩, after⟩
      · rintro ⟨middle, ⟨reached, gets, before⟩, after⟩
        exact ⟨reached, gets, middle, before, after⟩

end Dialogue

/-! ### What a machine does -/

/-- What a task has gone through by the time that its session has come to be as it is now, with all
that it has asked. -/
inductive Stage.Tells (registry : Registry ω) (program : Program α) (first : Session)
    (now : Session) : List Request → Stage ω α → Prop
  | ready {signals : List Signal} (sent : now = first.after signals) :
      Tells registry program first now [] (.ready program)
  | waiting {history : List (Exchange (List Signal))} {asked : Session} {request : Request}
      {wait : Wait ω request} {next : request.Answer → Program α}
      (dialogue : Dialogue registry first history asked)
      (leads : program.Leads history (.ask request next))
      (pending : ∀ later answer last, wait.Concludes now later answer last →
        ∃ earlier, request.Gets registry asked (earlier ++ later) answer last) :
      Tells registry program first now (history.map Exchange.request ++ [request])
        (.waiting wait next)
  | done {history : List (Exchange (List Signal))} {value : α} {last : Session}
      (dialogue : Dialogue registry first history last)
      (leads : program.Leads history (.done value)) :
      Tells registry program first now (history.map Exchange.request) (.done value)

section Tells

variable {registry : Registry ω} {program : Program α} {first now : Session}
  {trace : List Request} {stage : Stage ω α}

theorem Stage.Tells.signal (tells : stage.Tells registry program first now trace) (sent : Signal) :
    stage.Tells registry program first (now.mapControl sent.act) trace := by
  cases tells with
  | @ready signals isNow => exact .ready (isNow ▸ (first.after_concat signals sent).symm)
  | waiting dialogue leads pending =>
      refine .waiting dialogue leads fun later answer last concludes => ?_
      rcases pending ([sent] ++ later) answer last concludes.of_after with ⟨earlier, gets⟩
      exact ⟨earlier ++ [sent], by rwa [List.append_assoc]⟩
  | done dialogue leads => exact .done dialogue leads

/-- A program that is carried out as far as it goes tells what it goes through meanwhile. -/
theorem Program.advance_tells {rest : Program α} {reached : Session}
    {history : List (Exchange (List Signal))} (dialogue : Dialogue registry first history reached)
    (leads : program.Leads history rest) (signals : List Signal) (world : World ω) (call : Nat) :
    let after := rest.advance registry (reached.after signals) world
    after.stage.Tells registry program first after.session
      (history.map Exchange.request ++
        (rest.asks registry call (reached.after signals) world).map Asked.request) := by
  induction rest generalizing reached history signals world with
  | done value => simpa [asks, advance] using Stage.Tells.done dialogue leads
  | ask request next ih =>
      simp only [advance, asks]
      cases outcome : (request.carryOut registry (reached.after signals) world).outcome with
      | waiting wait =>
          exact .waiting dialogue leads fun later answer last concludes =>
            ⟨signals, signals, later, world, rfl, .inr ⟨wait, outcome, concludes⟩⟩
      | answered answer =>
          have gets : request.Gets registry reached signals answer
              (request.carryOut registry (reached.after signals) world).session :=
            ⟨signals, [], world, by simp, .inl ⟨outcome, rfl, rfl⟩⟩
          have further := Dialogue.append_iff.mpr ⟨reached, dialogue, .cons gets .nil⟩
          simpa using ih answer further (leads.snoc answer signals) []
            (request.carryOut registry (reached.after signals) world).world

theorem Stage.Tells.poll (tells : stage.Tells registry program first now trace) (world : World ω)
    (call : Nat) :
    let after := stage.poll registry now world
    after.stage.Tells registry program first after.session
      (trace ++ (stage.asks registry call now world).map Asked.request) := by
  cases tells with
  | ready isNow =>
      rw [isNow]
      exact Program.advance_tells .nil .here _ world call
  | done dialogue leads => simpa [Stage.asks, Stage.poll] using Stage.Tells.done dialogue leads
  | @waiting history asked request wait next dialogue leads pending =>
      simp only [Stage.poll, Stage.asks]
      split
      · rename_i awake
        cases outcome : (wait.resume now world).outcome with
        | waiting again =>
            rw [List.map_nil, List.append_nil]
            refine .waiting dialogue leads fun later answer last concludes => ?_
            have concludesFirst : wait.Concludes now ([] ++ later) answer last :=
              .again awake outcome concludes
            exact pending later answer last concludesFirst
        | answered answer =>
            rcases pending [] answer _ (.answered awake outcome) with ⟨earlier, gets⟩
            rw [List.append_nil] at gets
            have further := Dialogue.append_iff.mpr ⟨asked, dialogue, .cons gets .nil⟩
            simpa using Program.advance_tells further (leads.snoc answer earlier) []
              (wait.resume now world).world call
      · simpa using Stage.Tells.waiting dialogue leads pending

end Tells

namespace Machine

section Turns

variable (place call : Nat)

/-- What a machine does around a task that works alone on its session, with what the task asks: it
is polled, clients send signals, and what does not concern the session happens. -/
inductive Turns : Machine ω α → List Request → Machine ω α → Prop
  | start {machine : Machine ω α} : Turns machine [] machine
  | poll {first last : Machine ω α} {trace : List Request} (turns : Turns first trace last) :
      Turns first (trace ++ (last.asks call).map Asked.request) (last.poll call)
  | signal {first last : Machine ω α} {trace : List Request} (turns : Turns first trace last)
      (sent : Signal) : Turns first trace (last.modifyControl place sent.act)
  | elsewhere {first last next : Machine ω α} {trace : List Request}
      (turns : Turns first trace last) (sameRegistry : next.registry = last.registry)
      (sameView : next.view place = last.view place) : Turns first trace next

end Turns

variable {place call : Nat} {program : Program α} {first last : Machine ω α} {trace : List Request}
  {session : Session} {world : World ω}

theorem Turns.tells (turns : Turns place call first trace last)
    (begins : first.Shows place call ⟨session, world, .ready program⟩) :
    last.registry = first.registry ∧ ∃ now stage, last.Shows place call ⟨now, last.world, stage⟩ ∧
      stage.Tells first.registry program session now trace := by
  induction turns with
  | start =>
      have untouched : session = session.after [] := rfl
      exact ⟨rfl, session, .ready program, ⟨begins.session, begins.stage, rfl⟩, .ready untouched⟩
  | @poll last trace _ ih =>
      rcases ih with ⟨sameRegistry, now, stage, shows, tells⟩
      have showsAfter := shows.poll
      refine ⟨(registry_poll last call).trans sameRegistry, _, _,
        ⟨showsAfter.session, showsAfter.stage, rfl⟩, ?_⟩
      rw [shows.asks_eq, sameRegistry]
      exact tells.poll last.world call
  | signal _ sent ih =>
      rcases ih with ⟨sameRegistry, now, stage, shows, tells⟩
      exact ⟨sameRegistry, _, stage, shows.modifyControl sent.act, tells.signal sent⟩
  | elsewhere _ nextRegistry sameView ih =>
      rcases ih with ⟨sameRegistry, now, stage, shows, tells⟩
      refine ⟨nextRegistry.trans sameRegistry, now, stage, ⟨?_, ?_, rfl⟩, tells⟩
      · rw [sameView]
        exact shows.session
      · rw [sameView]
        exact shows.stage

/-- Whatever happens around a task, its program comes to its value by a dialogue of what it has
asked. -/
theorem Turns.exists_dialogue {value : α} (turns : Turns place call first trace last)
    (begins : first.Shows place call ⟨session, world, .ready program⟩)
    (ends : last.value? call = some value) :
    ∃ history reached, Dialogue first.registry session history reached ∧
      program.Yields history value ∧ trace = history.map Exchange.request := by
  rcases turns.tells begins with ⟨-, now, stage, shows, tells⟩
  obtain rfl : stage = .done value := shows.stage_of_value ends
  cases tells with
  | done dialogue leads => exact ⟨_, _, dialogue, leads.yields, rfl⟩

end Machine

end TestEngine
