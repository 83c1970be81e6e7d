import TestEngine.Proofs.Protocol

/-!
# Exchanges

What a run has gone through is told by its exchanges: the requests that it made, each with the
answer that it got and a note of what else is known of it. `Program.Yields` says that a program
comes to a value by a succession of exchanges, and `Visit.Yields` the same of a visit and of the
frame that it leaves. A statement about all successions is one about all answers, and what visits
are put together from can be found again in what they have gone through.
-/

namespace TestEngine

variable {σ α β ν : Type}

/-- A request with its answer, and with a note of what else is known of it. -/
structure Exchange (ν : Type) where
  request : Request
  answer : request.Answer
  note : ν

/-- The state of a protocol once the exchanges of a history have taken place. -/
def Protocol.follow (protocol : Protocol σ) (state : σ) (history : List (Exchange ν)) : σ :=
  history.foldl (fun state exchange => protocol.after state exchange.request exchange.answer) state

/-! ### Programs -/

/-- A program that comes to a value by the exchanges of a history. -/
inductive Program.Yields : Program α → List (Exchange ν) → α → Prop
  | done {value : α} : Yields (.done value) [] value
  | ask {request : Request} {next : request.Answer → Program α} {answer : request.Answer} {note : ν}
      {history : List (Exchange ν)} {value : α} (goesOn : (next answer).Yields history value) :
      Yields (.ask request next) (⟨request, answer, note⟩ :: history) value

namespace Program

variable {history : List (Exchange ν)}

@[simp]
theorem yields_pure {value other : α} :
    (pure value : Program α).Yields history other ↔ history = [] ∧ other = value := by
  constructor
  · intro yields
    cases yields
    exact ⟨rfl, rfl⟩
  · rintro ⟨rfl, rfl⟩
    exact .done

theorem yields_ask {request : Request} {next : request.Answer → Program α} {value : α} :
    (Program.request request >>= next).Yields history value ↔
      ∃ answer note rest, history = ⟨request, answer, note⟩ :: rest ∧
        (next answer).Yields rest value := by
  constructor
  · intro yields
    cases yields with
    | ask goesOn => exact ⟨_, _, _, rfl, goesOn⟩
  · rintro ⟨answer, note, rest, rfl, goesOn⟩
    exact .ask goesOn

theorem Yields.bind {program : Program α} {next : α → Program β} {rest : List (Exchange ν)}
    {middle : α} {value : β} (yields : program.Yields history middle)
    (goesOn : (next middle).Yields rest value) :
    (program >>= next).Yields (history ++ rest) value := by
  change (program.bind next).Yields _ value
  induction yields with
  | done => exact goesOn
  | ask _ ih => exact .ask (ih goesOn)

theorem yields_bind {program : Program α} {next : α → Program β} {value : β} :
    (program >>= next).Yields history value ↔
      ∃ middle first rest, history = first ++ rest ∧ program.Yields first middle ∧
        (next middle).Yields rest value := by
  constructor
  · intro yields
    change (program.bind next).Yields history value at yields
    induction program generalizing history with
    | done middle => exact ⟨middle, [], history, rfl, .done, yields⟩
    | ask request goOn ih =>
        cases yields with
        | ask goesOn =>
            rcases ih _ goesOn with ⟨middle, first, rest, rfl, yieldsFirst, yieldsRest⟩
            exact ⟨middle, _ :: first, rest, rfl, .ask yieldsFirst, yieldsRest⟩
  · rintro ⟨middle, first, rest, rfl, yieldsFirst, yieldsRest⟩
    exact yieldsFirst.bind yieldsRest

/-- What a program goes through and what it comes to if each request has an answer of its own. -/
def tell (answers : (request : Request) → request.Answer) : Program α → List (Exchange Unit) × α
  | .done value => ([], value)
  | .ask request next =>
    let rest := (next (answers request)).tell answers
    (⟨request, answers request, ()⟩ :: rest.1, rest.2)

theorem yields_tell (answers : (request : Request) → request.Answer) (program : Program α) :
    program.Yields (program.tell answers).1 (program.tell answers).2 := by
  induction program with
  | done value => exact .done
  | ask request next ih => exact .ask (ih _)

/-- What a protocol says of the value of a program holds of the one that it has come to. -/
theorem Obeys.holds {protocol : Protocol σ} {condition : α → σ → Prop} {program : Program α}
    {state : σ} {value : α} (obeys : program.Obeys protocol state condition)
    (yields : program.Yields history value) :
    condition value (protocol.follow state history) := by
  induction yields generalizing state with
  | done => exact obeys
  | ask _ ih => exact ih (obeys.2 _)

end Program

/-! ### Visits -/

namespace Visit

variable {history : List (Exchange ν)} {frame after : Frame}

/-- A visit that comes to its outcome by the exchanges of a history, and leaves a frame behind. -/
def Yields (visit : Visit α) (frame : Frame) (history : List (Exchange ν))
    (outcome : Except Abort α) (after : Frame) : Prop :=
  (visit.run.run frame).Yields history (outcome, after)

@[simp]
theorem yields_pure {value : α} {outcome : Except Abort α} :
    (pure value : Visit α).Yields frame history outcome after ↔
      history = [] ∧ outcome = .ok value ∧ after = frame := by
  change (Pure.pure (Except.ok value, frame) : Program _).Yields history (outcome, after) ↔ _
  rw [Program.yields_pure, Prod.mk.injEq]

@[simp]
theorem yields_abort {reason : Abort} {outcome : Except Abort α} :
    (abort reason : Visit α).Yields frame history outcome after ↔
      history = [] ∧ outcome = .error reason ∧ after = frame := by
  change (Pure.pure (Except.error reason, frame) : Program _).Yields history (outcome, after) ↔ _
  rw [Program.yields_pure, Prod.mk.injEq]

theorem yields_bind {visit : Visit α} {next : α → Visit β} {outcome : Except Abort β} :
    (visit >>= next).Yields frame history outcome after ↔
      (∃ reason, outcome = .error reason ∧ visit.Yields frame history (.error reason) after) ∨
        ∃ value middle first rest, history = first ++ rest ∧
          visit.Yields frame first (.ok value) middle ∧
            (next value).Yields middle rest outcome after := by
  change Program.Yields (visit.run.run frame >>= fun ended => _) history (outcome, after) ↔ _
  rw [Program.yields_bind]
  constructor
  · rintro ⟨⟨reason | value, middle⟩, first, rest, rfl, yields, goesOn⟩
    · rcases Program.yields_pure.mp goesOn with ⟨rfl, same⟩
      rcases Prod.mk.inj same with ⟨rfl, rfl⟩
      exact .inl ⟨reason, rfl, (List.append_nil first).symm ▸ yields⟩
    · exact .inr ⟨value, middle, first, rest, rfl, yields, goesOn⟩
  · rintro (⟨reason, rfl, yields⟩ | ⟨value, middle, first, rest, rfl, yields, goesOn⟩)
    · exact ⟨_, history, [], by simp, yields, Program.yields_pure.mpr ⟨rfl, rfl⟩⟩
    · exact ⟨_, first, rest, rfl, yields, goesOn⟩

theorem yields_ask_bind {request : Request} {next : request.Answer → Visit α}
    {outcome : Except Abort α} :
    (ask request >>= next).Yields frame history outcome after ↔
      ∃ answer note rest, history = ⟨request, answer, note⟩ :: rest ∧
        (next answer).Yields frame rest outcome after := by
  change Program.Yields (Program.request request >>= fun answer =>
    (next answer).run.run frame) history (outcome, after) ↔ _
  exact Program.yields_ask

@[simp]
theorem yields_modify {change : Frame → Frame} {outcome : Except Abort Unit} :
    (modify change).Yields frame history outcome after ↔
      history = [] ∧ outcome = .ok () ∧ after = change frame := by
  change (Pure.pure (Except.ok (), change frame) : Program _).Yields history (outcome, after) ↔ _
  rw [Program.yields_pure, Prod.mk.injEq]

theorem yields_modify_bind {change : Frame → Frame} {next : Unit → Visit α}
    {outcome : Except Abort α} :
    (modify change >>= next).Yields frame history outcome after ↔
      (next ()).Yields (change frame) history outcome after := Iff.rfl

theorem yields_context_bind {next : Context → Visit α} {outcome : Except Abort α} :
    (context >>= next).Yields frame history outcome after ↔
      (next frame.context).Yields frame history outcome after := Iff.rfl

theorem yields_store_bind {next : Store → Visit α} {outcome : Except Abort α} :
    (store >>= next).Yields frame history outcome after ↔
      (next frame.context.properties).Yields frame history outcome after := Iff.rfl

theorem run_attempt (visit : Visit α) (next : Except Abort α → Visit β) (frame : Frame) :
    (attempt visit >>= next).run.run frame =
      visit.run.run frame >>= fun reached => (next reached.1).run.run reached.2 := by
  change ((visit.run.run frame >>= fun reached => _) >>= fun reached => _) = _
  rw [bind_assoc]
  rfl

/-- After an attempt it goes on with the outcome, whatever it is. -/
theorem yields_attempt_bind {visit : Visit α} {next : Except Abort α → Visit β}
    {outcome : Except Abort β} :
    (attempt visit >>= next).Yields frame history outcome after ↔
      ∃ ended middle first rest, history = first ++ rest ∧ visit.Yields frame first ended middle ∧
        (next ended).Yields middle rest outcome after := by
  rw [Yields, run_attempt, Program.yields_bind]
  constructor
  · rintro ⟨⟨ended, middle⟩, first, rest, split, yields, goesOn⟩
    exact ⟨ended, middle, first, rest, split, yields, goesOn⟩
  · rintro ⟨ended, middle, first, rest, split, yields, goesOn⟩
    exact ⟨⟨ended, middle⟩, first, rest, split, yields, goesOn⟩

@[simp]
theorem yields_conclude {ended outcome : Except Abort α} :
    (conclude ended).Yields frame history outcome after ↔
      history = [] ∧ outcome = ended ∧ after = frame := by
  cases ended with
  | ok value => exact yields_pure
  | error reason => exact yields_abort

theorem yields_checkpoint_bind {α : Type} {next : Unit → Visit α} {outcome : Except Abort α} :
    (checkpoint >>= next).Yields frame history outcome after ↔
      ∃ goesOn note rest, history = ⟨.checkpoint, goesOn, note⟩ :: rest ∧
        if goesOn then (next ()).Yields frame rest outcome after
        else rest = [] ∧ outcome = .error .interrupted ∧ after = frame := by
  have same : (checkpoint >>= next) = ask .checkpoint >>= fun goesOn =>
      if goesOn then next () else abort .interrupted := by
    rw [checkpoint, bind_assoc]
    refine congrArg _ (funext fun goesOn => ?_)
    cases goesOn <;> rfl
  rw [same, yields_ask_bind]
  constructor
  · rintro ⟨goesOn, note, rest, rfl, yields⟩
    refine ⟨goesOn, note, rest, rfl, ?_⟩
    cases goesOn with
    | true => exact yields
    | false => exact yields_abort.mp yields
  · rintro ⟨goesOn, note, rest, rfl, yields⟩
    refine ⟨goesOn, note, rest, rfl, ?_⟩
    cases goesOn with
    | true => exact yields
    | false => exact yields_abort.mpr yields

theorem yields_moveTo_bind {change : Context → Context} {next : Unit → Visit α}
    {outcome : Except Abort α} :
    (moveTo change >>= next).Yields frame history outcome after ↔
      ∃ note rest, history = ⟨.moveTo (change frame.context).cursor, (), note⟩ :: rest ∧
        (next ()).Yields { frame with context := change frame.context } rest outcome after := by
  have same : (moveTo change >>= next) = context >>= fun context =>
      modify (fun frame => { frame with context := change context }) >>= fun _ =>
        ask (.moveTo (change context).cursor) >>= next := by
    simp only [moveTo, bind_assoc]
  rw [same, yields_context_bind, yields_modify_bind, yields_ask_bind]
  constructor
  · rintro ⟨⟨⟩, note, rest, rfl, goesOn⟩
    exact ⟨note, rest, rfl, goesOn⟩
  · rintro ⟨note, rest, rfl, goesOn⟩
    exact ⟨(), note, rest, rfl, goesOn⟩

end Visit

end TestEngine
