import TestEngine.Run.Visit

/-!
# Protocols

A protocol says which requests a program may make and keeps a state of its own that follows the
answers. `Program.Obeys` states of all answers at once that a program makes only requests that its
protocol allows, and that its end satisfies a condition. Since a `Visit` is a program with a frame,
the same is stated for visits, with one rule for each way of putting visits together: the visits of
steps are opened by these rules and never by their definition as functions.
-/

namespace TestEngine

variable {σ α β : Type}

/-- The rules for the requests of a program. -/
structure Protocol (σ : Type) where
  /-- Whether a request may be made. -/
  allows : σ → Request → Prop
  /-- The state once the request has its answer. -/
  after : σ → (request : Request) → request.Answer → σ

namespace Program

variable {protocol : Protocol σ}

/-- Whatever the answers are, a program makes only requests that are allowed, and a condition holds
of the value and the state that it ends with. -/
def Obeys (protocol : Protocol σ) : Program α → σ → (α → σ → Prop) → Prop
  | done value, state, condition => condition value state
  | ask request next, state, condition =>
      protocol.allows state request ∧
        ∀ answer, (next answer).Obeys protocol (protocol.after state request answer) condition

@[simp]
theorem obeys_pure {value : α} {state : σ} {condition : α → σ → Prop} :
    (pure value : Program α).Obeys protocol state condition ↔ condition value state :=
  Iff.rfl

@[simp]
theorem obeys_request {request : Request} {state : σ} {condition : request.Answer → σ → Prop} :
    (Program.request request).Obeys protocol state condition ↔
      protocol.allows state request ∧
        ∀ answer, condition answer (protocol.after state request answer) :=
  Iff.rfl

@[simp]
theorem obeys_bind {program : Program α} {next : α → Program β} {state : σ}
    {condition : β → σ → Prop} :
    (program >>= next).Obeys protocol state condition ↔
      program.Obeys protocol state fun value state =>
        (next value).Obeys protocol state condition := by
  change (program.bind next).Obeys protocol state condition ↔ _
  induction program generalizing state with
  | done value => exact Iff.rfl
  | ask request rest ih =>
      simp only [bind, Obeys]
      exact and_congr_right fun _ => forall_congr' fun answer => ih answer

theorem obeys_ask {request : Request} {next : request.Answer → Program α} {state : σ}
    {condition : α → σ → Prop} :
    (Program.request request >>= next).Obeys protocol state condition ↔
      protocol.allows state request ∧
        ∀ answer, (next answer).Obeys protocol (protocol.after state request answer) condition :=
  Iff.rfl

theorem Obeys.imp {program : Program α} {state : σ} {condition weaker : α → σ → Prop}
    (obeys : program.Obeys protocol state condition)
    (weakens : ∀ value state, condition value state → weaker value state) :
    program.Obeys protocol state weaker := by
  induction program generalizing state with
  | done value => exact weakens value state obeys
  | ask request rest ih => exact ⟨obeys.1, fun answer => ih answer (obeys.2 answer)⟩

end Program

namespace Visit

/-- What comes after a program of its own is visited where that program has not been. -/
theorem run_lift (program : Program α) (next : α → Visit β) (frame : Frame) :
    (ExceptT.lift (StateT.lift program) >>= next : Visit β).run.run frame =
      program >>= fun value => (next value).run.run frame := by
  change (((program >>= fun value => _) >>= fun ended => _) >>= fun ended => _) = _
  rw [bind_assoc, bind_assoc]
  rfl

variable {protocol : Protocol σ} {frame : Frame} {state : σ}

/-- As for programs; the condition is on how the visit ends, on the frame and on the state. -/
def Obeys (protocol : Protocol σ) (visit : Visit α) (frame : Frame) (state : σ)
    (condition : Except Abort α → Frame → σ → Prop) : Prop :=
  (visit.run.run frame).Obeys protocol state fun ended state => condition ended.1 ended.2 state

theorem Obeys.imp {visit : Visit α} {condition weaker : Except Abort α → Frame → σ → Prop}
    (obeys : visit.Obeys protocol frame state condition)
    (weakens : ∀ outcome frame state, condition outcome frame state → weaker outcome frame state) :
    visit.Obeys protocol frame state weaker :=
  Program.Obeys.imp obeys fun ended state => weakens ended.1 ended.2 state

@[simp]
theorem obeys_pure {value : α} {condition : Except Abort α → Frame → σ → Prop} :
    (pure value : Visit α).Obeys protocol frame state condition ↔
      condition (.ok value) frame state :=
  Iff.rfl

@[simp]
theorem obeys_abort {reason : Abort} {condition : Except Abort α → Frame → σ → Prop} :
    (abort reason : Visit α).Obeys protocol frame state condition ↔
      condition (.error reason) frame state :=
  Iff.rfl

@[simp]
theorem obeys_bind {visit : Visit α} {next : α → Visit β}
    {condition : Except Abort β → Frame → σ → Prop} :
    (visit >>= next).Obeys protocol frame state condition ↔
      visit.Obeys protocol frame state fun outcome frame state =>
        match outcome with
        | .ok value => (next value).Obeys protocol frame state condition
        | .error reason => condition (.error reason) frame state := by
  change Program.Obeys protocol (visit.run.run frame >>= fun ended => _) state _ ↔ _
  rw [Program.obeys_bind]
  refine iff_of_eq (congrArg _ ?_)
  funext ended state
  rcases ended with ⟨reason | value, frame⟩ <;> rfl

@[simp]
theorem obeys_ask {request : Request} {condition : Except Abort request.Answer → Frame → σ → Prop} :
    (ask request).Obeys protocol frame state condition ↔
      protocol.allows state request ∧
        ∀ answer, condition (.ok answer) frame (protocol.after state request answer) :=
  Iff.rfl

@[simp]
theorem obeys_frame {condition : Except Abort Frame → Frame → σ → Prop} :
    Visit.frame.Obeys protocol frame state condition ↔ condition (.ok frame) frame state :=
  Iff.rfl

@[simp]
theorem obeys_modify {change : Frame → Frame} {condition : Except Abort Unit → Frame → σ → Prop} :
    (modify change).Obeys protocol frame state condition ↔
      condition (.ok ()) (change frame) state :=
  Iff.rfl

@[simp]
theorem obeys_attempt {visit : Visit α}
    {condition : Except Abort (Except Abort α) → Frame → σ → Prop} :
    (attempt visit).Obeys protocol frame state condition ↔
      visit.Obeys protocol frame state fun outcome => condition (.ok outcome) := by
  change Program.Obeys protocol (visit.run.run frame >>= fun ended => _) state _ ↔ _
  rw [Program.obeys_bind]
  rfl

@[simp]
theorem obeys_lift {program : Program α} {condition : Except Abort α → Frame → σ → Prop} :
    Visit.Obeys protocol (ExceptT.lift (StateT.lift program)) frame state condition ↔
      program.Obeys protocol state fun value => condition (.ok value) frame := by
  change Program.Obeys protocol ((program >>= fun value => _) >>= fun ended => _) state _ ↔ _
  rw [Program.obeys_bind, Program.obeys_bind]
  rfl

@[simp]
theorem obeys_ofExcept {outcome : Except EngineError α}
    {condition : Except Abort α → Frame → σ → Prop} :
    (ofExcept outcome).Obeys protocol frame state condition ↔
      condition (outcome.mapError Abort.failed) frame state := by
  cases outcome <;> rfl

@[simp]
theorem obeys_conclude {outcome : Except Abort α}
    {condition : Except Abort α → Frame → σ → Prop} :
    (conclude outcome).Obeys protocol frame state condition ↔ condition outcome frame state := by
  cases outcome <;> rfl

end Visit

end TestEngine
