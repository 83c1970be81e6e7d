import TestEngine.Proofs.Machine.Timeline
import TestEngine.Proofs.Script.Closure
import TestEngine.Proofs.Script.Passage

/-!
# Where a run has come to

A run that is not over yet has gone through a part of its program, and what is left of it begins
with the visit that it has come upon. `Program.Leads` says the one and `Program.ComesUpon` the
other. Both can be followed along the ways in which visits are put together: from a script to its
steps, and from a step into what it does, up to the body of a lock.

They can be followed back as well. Whatever a run asks of a lock or of a capability, it asks inside
of a script that it has come upon, and there it is the first thing that some step of the script asks
once it was entered: `Program.ReachesOutIn.exists_call` finds the script and the step.
-/

namespace TestEngine

variable {α β γ ν : Type}

/-! ### Parts of programs -/

theorem Program.Leads.of_ask {request : Request} {next : request.Answer → Program α}
    {history : List (Exchange ν)} {rest : Program α}
    (leads : (Program.request request >>= next).Leads history rest) :
    history = [] ∨ ∃ answer note later, history = ⟨request, answer, note⟩ :: later ∧
      (next answer).Leads later rest := by
  change (Program.ask request next).Leads history rest at leads
  cases leads with
  | here => exact .inl rfl
  | ask leads => exact .inr ⟨_, _, _, rfl, leads⟩

theorem Program.Yields.leads {program : Program α} {history : List (Exchange ν)} {value : α}
    (yields : program.Yields history value) : program.Leads history (.done value) := by
  induction yields with
  | done => exact .here
  | ask _ ih => exact .ask ih

theorem Program.Leads.of_done {value : α} {history : List (Exchange ν)} {rest : Program α}
    (leads : (Program.done value).Leads history rest) : history = [] := by
  cases leads
  rfl

namespace Program.Leads

variable {program : Program α} {history : List (Exchange ν)} {rest : Program α}

theorem bind (leads : program.Leads history rest) (next : α → Program β) :
    (program >>= next).Leads history (rest >>= next) := by
  induction leads with
  | here => exact .here
  | ask _ ih => exact .ask ih

theorem trans (leads : program.Leads history rest) {later : List (Exchange ν)} {last : Program α}
    (further : rest.Leads later last) : program.Leads (history ++ later) last := by
  induction leads with
  | here => exact further
  | ask _ ih => exact .ask (ih further)

/-- Up to some place a program has gone through a part of its first half, or through all of it and a
part of the second one. -/
theorem of_bind {next : α → Program β} {rest : Program β}
    (leads : (program >>= next).Leads history rest) :
    (∃ inner, program.Leads history inner ∧ rest = inner >>= next) ∨
      ∃ middle first later, history = first ++ later ∧ program.Yields first middle ∧
        (next middle).Leads later rest := by
  change (program.bind next).Leads history rest at leads
  induction program generalizing history with
  | done value => exact .inr ⟨value, [], history, rfl, .done, leads⟩
  | ask request goOn ih =>
      cases leads with
      | here => exact .inl ⟨_, .here, rfl⟩
      | ask leads =>
          rcases ih _ leads with ⟨inner, leadsInside, rfl⟩ |
            ⟨middle, first, later, rfl, yields, goesOn⟩
          · exact .inl ⟨inner, .ask leadsInside, rfl⟩
          · exact .inr ⟨middle, _ :: first, later, rfl, .ask yields, goesOn⟩

/-- What a program asks next, it asks in its first half, or in the second one once the first half is
over. -/
theorem ask_of_bind {next : α → Program β} {request : Request} {goOn : request.Answer → Program β}
    (leads : (program >>= next).Leads history (.ask request goOn)) :
    (∃ further, program.Leads history (.ask request further)) ∨
      ∃ middle first later, history = first ++ later ∧ program.Leads first (.done middle) ∧
        (next middle).Leads later (.ask request goOn) := by
  rcases leads.of_bind with ⟨inner, inside, isRest⟩ | ⟨middle, first, later, rfl, yields, goesOn⟩
  · cases inner with
    | done middle =>
        have goesOn : (next middle).Leads ([] : List (Exchange ν)) (.ask request goOn) := by
          rw [isRest]
          exact .here
        exact .inr ⟨middle, history, [], (List.append_nil history).symm, inside, goesOn⟩
    | ask asked further =>
        obtain rfl : request = asked := congrArg (fun
          | Program.ask request _ => request
          | Program.done _ => request) isRest
        exact .inl ⟨further, inside⟩
  · exact .inr ⟨middle, first, later, rfl, yields.leads, goesOn⟩

end Program.Leads

/-! ### Programs that are come upon -/

/-- A program that has come to an inner one, and has something to do behind it. -/
def Program.ComesUpon (program : Program α) (history : List (Exchange ν)) (inner : Program β) :
    Prop :=
  ∃ next : β → Program α, program.Leads history (inner >>= next)

namespace Program.ComesUpon

variable {program middle : Program α} {history later : List (Exchange ν)}

theorem of_leads (leads : program.Leads history middle) : program.ComesUpon history middle :=
  ⟨pure, by rw [bind_pure]; exact leads⟩

/-- Within a program that was come upon it goes on to the programs inside of that one. -/
theorem trans {outer : Program γ} {inner : Program β} (comes : outer.ComesUpon history program)
    (further : program.ComesUpon later inner) : outer.ComesUpon (history ++ later) inner := by
  rcases comes with ⟨next, leads⟩
  rcases further with ⟨behind, leadsInside⟩
  refine ⟨fun value => behind value >>= next, ?_⟩
  rw [← LawfulMonad.bind_assoc]
  exact leads.trans (leadsInside.bind next)

theorem itself : program.ComesUpon ([] : List (Exchange ν)) program := .of_leads .here

theorem ask {request : Request} {next : request.Answer → Program α} {inner : Program β}
    (answer : request.Answer) (note : ν) (comes : (next answer).ComesUpon history inner) :
    (Program.ask request next).ComesUpon (⟨request, answer, note⟩ :: history) inner :=
  trans (.of_leads (.ask .here)) comes

theorem bind {inner : Program γ} (comes : program.ComesUpon history inner)
    (next : α → Program β) : (program >>= next).ComesUpon history inner :=
  trans ⟨next, .here⟩ comes

end Program.ComesUpon

section Steps

variable {setting : Setting}

theorem Succession.comesUpon_sequence {steps : List Step} {frame middle : Frame}
    {passages : List (Passage ν)}
    (succession : Succession setting steps frame passages (.ok .next) middle) (step : Step)
    (rest : List Step) :
    ((Visit.sequence ((steps ++ step :: rest).map (Step.visit setting))).run.run frame).ComesUpon
      (passages.flatMap Passage.history) ((step.visit setting).run.run middle) := by
  generalize goesOn : (Except.ok .next : Except Abort Flow) = outcome at succession
  induction succession with
  | done => exact ⟨_, .here⟩
  | last _ ends => exact absurd goesOn.symm ends
  | next occurs _ ih => exact .trans (.of_leads (occurs.leads.bind _)) (ih goesOn)

/-- Behind siblings that have led on to it a step is visited. -/
theorem Succession.comesUpon {steps children rest : List Step} {frame middle : Frame}
    {passages : List (Passage ν)} {step : Step}
    (succession : Succession setting steps frame passages (.ok .next) middle)
    (sorted : inOrder Step.order children = steps ++ step :: rest) :
    ((Visit.siblings (Step.visits setting children)).run.run frame).ComesUpon
      (passages.flatMap Passage.history) ((step.visit setting).run.run middle) := by
  rw [Visit.siblings, Step.visits_eq_map, inOrder_map, List.map_map]
  change ((Visit.sequence ((inOrder Step.order children).map (Step.visit setting))).run.run
    frame).ComesUpon _ _
  rw [sorted]
  exact succession.comesUpon_sequence step rest

theorem Frame.Enters.comesUpon {frame : Frame} {step : Step} {entry : List (Exchange ν)}
    (enters : frame.Enters step entry) :
    ((step.visit setting).run.run frame).ComesUpon entry
      ((step.kind.visit setting).run.run (frame.entering step)) := by
  rcases step with ⟨id, order, kind⟩
  cases enters
  exact .of_leads (.ask (.ask .here))

theorem Script.comesUpon_steps (script : Script) (context : Context)
    (start : Request.now.Answer) (began moved : ν) :
    (script.run setting context).ComesUpon
      [⟨.now, start, began⟩, ⟨.moveTo (script.opening context).context.cursor, (), moved⟩]
      ((Visit.siblings (Step.visits setting script.steps)).run.run (script.opening context)) := by
  rcases script with ⟨id, name, order, steps⟩
  exact ⟨_, .ask (.ask .here)⟩

end Steps

/-! ### Steps that lock -/

/-- What the visit of a step that locks a name has gone through up to some place. Nothing of its
body is visited unless the lock was granted, or once it was given back. -/
inductive Visit.Locks (name : String) (timeout : Nat) (body : Visit Flow) (frame : Frame) :
    List (Exchange ν) → Prop
  | before : Locks name timeout body frame []
  | refused {answer : LockAnswer} {note : ν} {checks : List (Exchange ν)}
      (refused : answer ≠ .granted) (onlyChecks : ∀ check ∈ checks, check.request = .checkpoint) :
      Locks name timeout body frame (⟨.acquire name timeout, answer, note⟩ :: checks)
  | inside {note : ν} {part : List (Exchange ν)} {rest : Program (Except Abort Flow × Frame)}
      (visits : (body.run.run frame).Leads part rest) :
      Locks name timeout body frame (⟨.acquire name timeout, .granted, note⟩ :: part)
  | behind {note released : ν} {part : List (Exchange ν)} {outcome : Except Abort Flow}
      {after : Frame} (visited : body.Yields frame part outcome after) :
      Locks name timeout body frame
        (⟨.acquire name timeout, .granted, note⟩ :: (part ++ [⟨.release name, (), released⟩]))

theorem Visit.leads_lock {name : String} {timeout : Nat} {body : Visit Flow} {frame : Frame}
    {history : List (Exchange ν)} {rest : Program (Except Abort Flow × Frame)}
    (leads : ((lock name timeout body).run.run frame).Leads history rest) :
    Locks name timeout body frame history := by
  rcases Program.Leads.of_ask leads with rfl | ⟨answer, note, later, rfl, answered⟩
  · exact .before
  cases answer with
  | granted =>
      change ((attempt body >>= fun outcome => ask (.release name) >>= fun _ =>
        conclude outcome).run.run frame).Leads later rest at answered
      rw [run_attempt] at answered
      rcases answered.of_bind with ⟨inner, visits, -⟩ |
        ⟨⟨outcome, after⟩, part, last, rfl, visited, gives⟩
      · exact .inside visits
      · rcases Program.Leads.of_ask gives with rfl | ⟨⟨⟩, released, nothing, rfl, concludes⟩
        · rw [List.append_nil]
          exact .inside visited.leads
        · have isAll : nothing = [] := by
            cases outcome <;> exact Program.Leads.of_done concludes
          rw [isAll]
          exact .behind visited
  | timedOut =>
      rw [Program.Leads.of_done answered]
      exact .refused nofun (List.forall_mem_nil _)
  | cancelled =>
      have isCheck {checked : ν} {goesOn : Bool} :
          ∀ check ∈ [(⟨.checkpoint, goesOn, checked⟩ : Exchange ν)],
            check.request = .checkpoint := by
        simp
      rcases Program.Leads.of_ask answered with rfl | ⟨goesOn, checked, nothing, rfl, concludes⟩
      · exact .refused nofun (List.forall_mem_nil _)
      · have isAll : nothing = [] := by
          cases goesOn <;> exact Program.Leads.of_done concludes
        rw [isAll]
        exact .refused nofun isCheck

/-! ### Who reaches out -/

/-- Whether a request reaches out of a run, be it for a lock or to a capability. -/
def Request.isOutward : Request → Bool
  | .acquire .. | .perform _ | .execute _ | .verify .. => true
  | _ => false

theorem Request.not_isOutward_of_isIndifferent {request : Request}
    (indifferent : request.isIndifferent) : ¬request.isOutward := by
  cases request <;> first | exact Bool.false_ne_true | exact nomatch indifferent

/-- Before it reaches out a program has gone past what it asks that does not. -/
theorem Program.Leads.goes_past {asked : Request} {next : asked.Answer → Program α}
    {history : List (Exchange ν)} {request : Request} {goOn : request.Answer → Program α}
    (leads : (Program.ask asked next).Leads history (.ask request goOn))
    (stays : asked.isOutward = false) (outward : request.isOutward) :
    ∃ answer note later, history = ⟨asked, answer, note⟩ :: later ∧
      (next answer).Leads later (.ask request goOn) := by
  cases leads with
  | here => exact absurd outward (ne_true_of_eq_false stays)
  | ask leads => exact ⟨_, _, _, rfl, leads⟩

/-- What a program asks behind a history, it asks inside of one of some programs that it has come
upon. -/
def Program.AsksIn (inner : (β : Type) → Program β → Prop) (program : Program α)
    (history : List (Exchange Unit)) (request : Request) : Prop :=
  ∃ (β : Type) (part : Program β) (opening later : List (Exchange Unit))
    (next : request.Answer → Program β), inner β part ∧ history = opening ++ later ∧
      program.ComesUpon opening part ∧ part.Leads later (.ask request next)

/-- A program that reaches out only inside of some programs. -/
def Program.ReachesOutIn (inner : (β : Type) → Program β → Prop) (program : Program α) : Prop :=
  ∀ (history : List (Exchange Unit)) (request : Request) (next : request.Answer → Program α),
    program.Leads history (.ask request next) → request.isOutward →
      program.AsksIn inner history request

theorem Program.ComesUpon.asksIn {program : Program α} {part : Program β}
    {before later : List (Exchange Unit)} {inner : (β : Type) → Program β → Prop}
    {request : Request} (comes : program.ComesUpon before part)
    (asks : part.AsksIn inner later request) : program.AsksIn inner (before ++ later) request := by
  rcases asks with ⟨γ, inside, opening, rest, next, isInner, rfl, further, leads⟩
  exact ⟨γ, inside, before ++ opening, rest, next, isInner, (List.append_assoc ..).symm,
    comes.trans further, leads⟩

namespace Program.ReachesOutIn

variable {inner : (β : Type) → Program β → Prop}

theorem done (value : α) : (Program.done value).ReachesOutIn inner :=
  fun _ _ _ leads => nomatch leads

theorem itself {program : Program α} (isInner : inner α program) :
    program.ReachesOutIn inner :=
  fun history _ next leads _ =>
    ⟨α, program, [], history, next, isInner, rfl, .itself, leads⟩

theorem ask {request : Request} {next : request.Answer → Program α}
    (stays : ¬request.isOutward) (rest : ∀ answer, (next answer).ReachesOutIn inner) :
    (Program.ask request next).ReachesOutIn inner := by
  intro history asked goOn leads outward
  cases leads with
  | here => exact absurd outward stays
  | @ask _ _ _ answer note later leads =>
      exact (ComesUpon.ask answer note .itself).asksIn (rest answer later asked goOn leads outward)

theorem bind {program : Program α} {next : α → Program β} (first : program.ReachesOutIn inner)
    (rest : ∀ value, (next value).ReachesOutIn inner) :
    (program >>= next).ReachesOutIn inner := by
  intro history request goOn leads outward
  rcases leads.ask_of_bind with ⟨further, inside⟩ | ⟨value, before, later, rfl, ended, goesOn⟩
  · exact (ComesUpon.bind .itself next).asksIn (first history request further inside outward)
  · have comes : (program >>= next).ComesUpon before (next value) := .of_leads (ended.bind next)
    exact comes.asksIn (rest value later request goOn goesOn outward)

end Program.ReachesOutIn

namespace Visit

variable {inner : (β : Type) → Program β → Prop} {visit : Visit α}

/-- A visit that reaches out only inside of some programs. -/
def ReachesOutIn (inner : (β : Type) → Program β → Prop) (visit : Visit α) : Prop :=
  ∀ frame, (visit.run.run frame).ReachesOutIn inner

theorem ReachesOutIn.bind {next : α → Visit β} (first : visit.ReachesOutIn inner)
    (rest : ∀ value, (next value).ReachesOutIn inner) : (visit >>= next).ReachesOutIn inner := by
  intro frame
  refine Program.ReachesOutIn.bind (first frame) ?_
  rintro ⟨reason | value, left⟩
  · exact .done _
  · exact rest value left

theorem reachesOutIn_inherits (inner : (β : Type) → Program β → Prop) :
    Inherits fun _ visit => visit.ReachesOutIn inner where
  pure _ _ := .done _
  abort _ _ := .done _
  bind := .bind
  attempt tried frame := .bind (tried frame) fun _ => .done _
  frame _ := .done _
  report _ _ := .done _
  put _ _ := .done _
  erase _ _ := .done _
  mergeScoped _ _ _ := .done _
  propertyAction action := by
    have reads : ReachesOutIn inner store := fun _ => .done _
    refine reads.bind fun properties => ?_
    have writes : ReachesOutIn inner (modifyStore fun _ => (action.apply properties).1) :=
      fun _ => .done _
    refine writes.bind fun _ => ?_
    split
    · exact fun _ => .done _
    · exact fun _ => .done _
  ask request indifferent frame :=
    .ask (Request.not_isOutward_of_isIndifferent indifferent) fun _ => .done _

/-- A visit that reaches out with the first thing that it asks, if it does not do so inside of some
programs. -/
def ReachesOutFirst (inner : (β : Type) → Program β → Prop) (visit : Visit α) : Prop :=
  ∀ frame, (visit.run.run frame).ReachesOutIn inner ∨
    ∃ request next, visit.run.run frame = .ask request next ∧
      ∀ answer, (next answer).ReachesOutIn inner

namespace ReachesOutFirst

theorem of_inside (inside : visit.ReachesOutIn inner) : visit.ReachesOutFirst inner :=
  fun frame => .inl (inside frame)

theorem ask_bind {request : Request} {next : request.Answer → Visit α}
    (rest : ∀ answer, (next answer).ReachesOutIn inner) :
    (ask request >>= next).ReachesOutFirst inner :=
  fun frame => .inr ⟨request, _, rfl, fun answer => rest answer frame⟩

theorem store_bind {next : Store → Visit α} (rest : ∀ store, (next store).ReachesOutFirst inner) :
    (store >>= next).ReachesOutFirst inner :=
  fun frame => rest frame.context.properties frame

theorem context_bind {next : Context → Visit α}
    (rest : ∀ context, (next context).ReachesOutFirst inner) :
    (context >>= next).ReachesOutFirst inner :=
  fun frame => rest frame.context frame

theorem ofExcept_bind {outcome : Except EngineError α} {next : α → Visit β}
    (rest : ∀ value, (next value).ReachesOutFirst inner) :
    (ofExcept outcome >>= next).ReachesOutFirst inner := by
  cases outcome with
  | ok value => exact rest value
  | error error => exact fun frame => .inl (.done _)

/-- The outward request that such a visit makes is its first one, or is made inside. -/
theorem asks (first : visit.ReachesOutFirst inner) {frame : Frame} {request : Request}
    {history : List (Exchange Unit)} {next : request.Answer → Program (Except Abort α × Frame)}
    (leads : (visit.run.run frame).Leads history (.ask request next))
    (outward : request.isOutward) :
    (history = [] ∧ visit.run.run frame = .ask request next) ∨
      (visit.run.run frame).AsksIn inner history request := by
  rcases first frame with inside | ⟨asked, rest, asks, inside⟩
  · exact .inr (inside history request next leads outward)
  · rw [asks] at leads ⊢
    cases leads with
    | here => exact .inl ⟨rfl, rfl⟩
    | @ask _ _ _ answer note later leads =>
        refine .inr (Program.ComesUpon.asksIn (.ask answer note .itself) ?_)
        exact inside answer later request next leads outward

end ReachesOutFirst

end Visit

/-! ### Steps that reach out -/

/-- The steps that a step holds and visits as steps of its own script. -/
def StepKind.children : StepKind → List Step
  | .condition ⟨_, children⟩ => children
  | .execution children => children
  | .loop _ children => children
  | .foreach _ _ children => children
  | .lock _ _ children => children
  | _ => []

/-- What a step of a kind visits: the steps that it holds, or another script. -/
inductive StepKind.Visits (setting : Setting) (kind : StepKind) : (β : Type) → Program β → Prop
  | children (frame : Frame) : Visits setting kind (Except Abort Flow × Frame)
      ((Visit.siblings (Step.visits setting kind.children)).run.run frame)
  | script {script : Script} (isScript : kind = .script script) (context : Context) :
      Visits setting kind ScriptRun (script.run setting context)

section Kinds

variable {setting : Setting} {inner : (β : Type) → Program β → Prop}

theorem Visit.action_reachesOutFirst (action : Action) :
    (Visit.action setting action).ReachesOutFirst inner := by
  have inherits := reachesOutIn_inherits inner
  apply ReachesOutFirst.ofExcept_bind
  rintro ⟨target, operation⟩
  apply ReachesOutFirst.store_bind
  intro properties
  apply ReachesOutFirst.ofExcept_bind
  intro arguments
  apply ReachesOutFirst.context_bind
  intro context
  apply ReachesOutFirst.ask_bind
  intro reply
  apply inherits.bind (inherits.takeReply reply)
  intro response
  exact inherits.bind (inherits.waitAfter action.delay) fun _ => inherits.enterResponse action _

theorem Visit.function_reachesOutFirst (function : Function) :
    (Visit.function setting function).ReachesOutFirst inner := by
  have inherits := reachesOutIn_inherits inner
  unfold Visit.function
  split
  · apply ReachesOutFirst.store_bind
    intro properties
    apply ReachesOutFirst.ofExcept_bind
    intro arguments
    apply ReachesOutFirst.ask_bind
    rintro ⟨lines, reply⟩
    apply inherits.bind (inherits.takeFunctionReply _ lines reply)
    intro returned
    exact inherits.bind (inherits.mergeScoped _ _) fun _ => inherits.pure _
  · exact .of_inside (inherits.fail _)

theorem Visit.assertion_reachesOutFirst (assertion : Assertion) :
    (Visit.assertion setting assertion).ReachesOutFirst inner := by
  have inherits := reachesOutIn_inherits inner
  unfold Visit.assertion
  dsimp only
  split
  · exact .of_inside (inherits.fail _)
  · split
    · unfold Visit.verify
      split
      · apply ReachesOutFirst.store_bind
        intro properties
        apply ReachesOutFirst.ofExcept_bind
        intro resolved
        apply ReachesOutFirst.ask_bind
        exact fun answer => inherits.takeVerification _ answer
      · exact .of_inside (inherits.fail _)
    · exact .of_inside (inherits.pure _)

theorem Visit.lock_reachesOutFirst (name : String) (timeout : Nat) {body : Visit Flow}
    (bodyReaches : body.ReachesOutIn inner) :
    (Visit.lock name timeout body).ReachesOutFirst inner := by
  have inherits := reachesOutIn_inherits inner
  have release : (Visit.ask (.release name)).ReachesOutIn inner :=
    fun _ => .ask Bool.false_ne_true fun _ => .done _
  apply ReachesOutFirst.ask_bind
  intro answer
  cases answer with
  | granted =>
      apply inherits.bind (inherits.attempt bodyReaches)
      intro outcome
      exact inherits.bind release fun _ => inherits.conclude outcome
  | timedOut => exact inherits.fail _
  | cancelled => exact inherits.bind inherits.checkpoint fun _ => inherits.abort _

theorem Visit.embed_reachesOutIn (name : String) {run : Context → Program ScriptRun}
    (runs : ∀ context, (run context).ReachesOutIn inner) :
    (Visit.embed name run).ReachesOutIn inner := by
  have inherits := reachesOutIn_inherits inner
  apply inherits.bind inherits.context
  intro context
  have ran : ReachesOutIn inner (ExceptT.lift (StateT.lift (run context)) : Visit ScriptRun) := by
    intro frame
    rw [← bind_pure (ExceptT.lift (StateT.lift (run context)) : Visit ScriptRun), run_lift]
    exact .bind (runs context) fun _ => .done _
  apply inherits.bind ran
  intro ran
  have enters : ReachesOutIn inner
      (Visit.modify fun frame => { frame with context := ran.context }) := fun _ => .done _
  apply inherits.bind enters
  intro _
  cases ran.ending with
  | crashed => exact inherits.abort _
  | interrupted => exact inherits.bind (inherits.record _) fun _ => inherits.abort _
  | completed =>
      apply inherits.bind (inherits.record _)
      intro _
      split
      · exact inherits.fail _
      · exact inherits.pure _

/-- A step reaches out with the first thing that it asks, or inside of what it visits. -/
theorem StepKind.reachesOutFirst (kind : StepKind) :
    (kind.visit setting).ReachesOutFirst (kind.Visits setting) := by
  have inherits := Visit.reachesOutIn_inherits (kind.Visits setting)
  have children : (Visit.siblings (Step.visits setting kind.children)).ReachesOutIn
      (kind.Visits setting) := fun frame => .itself (.children frame)
  cases kind with
  | logger level steps =>
      rw [StepKind.visit]
      exact .of_inside (inherits.logger level steps)
  | textMessage message =>
      rw [StepKind.visit]
      exact .of_inside (inherits.textMessage message)
  | condition block =>
      rcases block with ⟨guard, steps⟩
      rw [StepKind.visit]
      exact .of_inside (inherits.condition guard children)
  | execution steps =>
      rw [StepKind.visit]
      exact .of_inside children
  | action action =>
      rw [StepKind.visit]
      exact Visit.action_reachesOutFirst action
  | assertion assertion =>
      rw [StepKind.visit]
      exact Visit.assertion_reachesOutFirst assertion
  | loop bounds steps =>
      rw [StepKind.visit]
      exact .of_inside (inherits.loop bounds children)
  | foreach list element steps =>
      rw [StepKind.visit]
      exact .of_inside (inherits.foreach list element children)
  | breakLoop conditions =>
      rw [StepKind.visit]
      exact .of_inside (inherits.breakLoop _)
  | lock name timeout steps =>
      rw [StepKind.visit]
      exact Visit.lock_reachesOutFirst name _ children
  | propertyAction action =>
      rw [StepKind.visit]
      exact .of_inside (inherits.propertyAction action)
  | script script =>
      rw [StepKind.visit]
      exact .of_inside (Visit.embed_reachesOutIn script.name fun context =>
        .itself (.script rfl context))
  | function function =>
      rw [StepKind.visit]
      exact Visit.function_reachesOutFirst function

/-- A step reaches out only once it was entered, and then as its kind does. -/
theorem Step.leads_entered {step : Step} {frame : Frame} {history : List (Exchange Unit)}
    {request : Request} {next : request.Answer → Program (Except Abort Flow × Frame)}
    (leads : ((step.visit setting).run.run frame).Leads history (.ask request next))
    (outward : request.isOutward) :
    ∃ entry later, history = entry ++ later ∧ frame.Enters step entry ∧
      ((step.kind.visit setting).run.run (frame.entering step)).Leads later
        (.ask request next) := by
  rcases step with ⟨id, order, kind⟩
  rcases Program.Leads.goes_past leads rfl outward with ⟨goesOn, checked, rest, rfl, moves⟩
  cases goesOn with
  | false => exact nomatch moves
  | true =>
      rcases Program.Leads.goes_past moves rfl outward with ⟨_, moved, later, rfl, entered⟩
      exact ⟨_, later, rfl, .intro checked moved, entered⟩

/-- Siblings reach out only inside of a step that the ones before it have led on to. -/
theorem Visit.leads_siblings {siblings : List Step} {frame : Frame}
    {history : List (Exchange Unit)} {request : Request}
    {next : request.Answer → Program (Except Abort Flow × Frame)}
    (leads : ((Visit.siblings (Step.visits setting siblings)).run.run frame).Leads history
      (.ask request next)) :
    ∃ earlier step rest passages reached later goOn,
      inOrder Step.order siblings = earlier ++ step :: rest ∧
        Succession setting earlier frame passages (.ok .next) reached ∧
        history = passages.flatMap Passage.history ++ later ∧
          ((step.visit setting).run.run reached).Leads later (.ask request goOn) := by
  rw [Visit.siblings, Step.visits_eq_map, inOrder_map, List.map_map] at leads
  change ((Visit.sequence ((inOrder Step.order siblings).map (Step.visit setting))).run.run
    frame).Leads history (.ask request next) at leads
  generalize inOrder Step.order siblings = steps at leads ⊢
  induction steps generalizing frame history with
  | nil => cases leads
  | cons step rest ih =>
      rcases Program.Leads.ask_of_bind leads with ⟨further, inside⟩ |
        ⟨⟨outcome, reached⟩, before, later, rfl, ended, goesOn⟩
      · exact ⟨[], step, rest, [], frame, history, further, rfl, .done, rfl, inside⟩
      · rcases outcome with reason | _ | _
        · cases goesOn
        · rcases ih goesOn with
            ⟨earlier, inner, behind, passages, there, later, goOn, rfl, succession, rfl, inside⟩
          exact ⟨step :: earlier, inner, behind,
            ⟨step, frame, before, .ok .next, reached⟩ :: passages,
            there, later, goOn, rfl, .next ended.yields succession, by simp, inside⟩
        · cases goesOn

end Kinds

/-! ### Calls -/

/-- How siblings that are visited from a frame come to a step, which is then visited from another
one. It is one of them, or is held by a step that they have come to. The steps of scripts that are
run meanwhile are left out. -/
inductive Approach (setting : Setting) :
    List Step → Frame → List (Exchange Unit) → Step → Frame → Prop
  | among {siblings earlier rest : List Step} {step : Step} {frame there : Frame}
      {passages : List (Passage Unit)}
      (sorted : inOrder Step.order siblings = earlier ++ step :: rest)
      (succession : Succession setting earlier frame passages (.ok .next) there) :
      Approach setting siblings frame (passages.flatMap Passage.history) step there
  | inside {siblings : List Step} {outer step : Step} {frame reached within there : Frame}
      {before entry opening later : List (Exchange Unit)}
      (approach : Approach setting siblings frame before outer reached)
      (enters : reached.Enters outer entry)
      (opens : ((outer.kind.visit setting).run.run (reached.entering outer)).ComesUpon opening
        ((Visit.siblings (Step.visits setting outer.kind.children)).run.run within))
      (deeper : Approach setting outer.kind.children within later step there) :
      Approach setting siblings frame (before ++ (entry ++ (opening ++ later))) step there

/-- A run of a script comes to a step that the script contains directly, and once it was entered the
step asks for something first. The history is what the run of the script has asked until then. -/
inductive Script.Calls (setting : Setting) (script : Script) (context : Context) :
    List (Exchange Unit) → Step → Request → Prop
  | intro (start : Request.now.Answer) {before entry : List (Exchange Unit)} {step : Step}
      {there : Frame} {request : Request}
      {next : request.Answer → Program (Except Abort Flow × Frame)}
      (approach : Approach setting script.steps (script.opening context) before step there)
      (enters : there.Enters step entry)
      (asks : (step.kind.visit setting).run.run (there.entering step) = .ask request next) :
      Calls setting script context
        (⟨.now, start, ()⟩ :: ⟨.moveTo (script.opening context).context.cursor, (), ()⟩ ::
          (before ++ entry)) step request

/-- The runs of scripts. -/
inductive Program.IsScript (setting : Setting) : (β : Type) → Program β → Prop
  | run (script : Script) (context : Context) :
      IsScript setting ScriptRun (script.run setting context)

section Calls

variable {setting : Setting} {request : Request}

theorem Approach.comesUpon {siblings : List Step} {step : Step} {frame there : Frame}
    {history : List (Exchange Unit)}
    (approach : Approach setting siblings frame history step there) :
    ((Visit.siblings (Step.visits setting siblings)).run.run frame).ComesUpon history
      ((step.visit setting).run.run there) := by
  induction approach with
  | among sorted succession => exact succession.comesUpon sorted
  | inside _ enters opens _ outerComes comes =>
      exact outerComes.trans (enters.comesUpon.trans (opens.trans comes))

/-- Siblings reach out with the first thing that a step asks that they have come to, or inside of a
script that they run. -/
theorem Visit.siblings_reach {siblings : List Step} {frame : Frame}
    {history : List (Exchange Unit)}
    {next : request.Answer → Program (Except Abort Flow × Frame)}
    (leads : ((Visit.siblings (Step.visits setting siblings)).run.run frame).Leads history
      (.ask request next)) (outward : request.isOutward) :
    (∃ before entry step there goOn, Approach setting siblings frame before step there ∧
      there.Enters step entry ∧ history = before ++ entry ∧
        (step.kind.visit setting).run.run (there.entering step) = .ask request goOn) ∨
      ((Visit.siblings (Step.visits setting siblings)).run.run frame).AsksIn
        (Program.IsScript setting) history request := by
  -- What a step has still to ask is shorter than what its siblings have.
  induction sized : history.length using Nat.strongRecOn
    generalizing siblings frame history next with
  | ind size ih =>
      rcases leads_siblings leads with
        ⟨earlier, step, rest, passages, reached, visited, goOn, sorted, succession, rfl, visits⟩
      rcases Step.leads_entered visits outward with ⟨entry, inside, rfl, enters, asks⟩
      have approach := Approach.among sorted succession
      rcases step.kind.reachesOutFirst.asks asks outward with ⟨rfl, first⟩ | asksInside
      · exact .inl ⟨_, entry, step, reached, goOn, approach, enters, by simp, first⟩
      rcases asksInside with ⟨β, part, opening, later, further, isVisited, rfl, comes, leads⟩
      have comesThere := approach.comesUpon.trans (enters.comesUpon.trans comes)
      have asksThere {request : Request}
          (asks : part.AsksIn (Program.IsScript setting) later request) :
          ((Visit.siblings (Step.visits setting siblings)).run.run frame).AsksIn
            (Program.IsScript setting)
            (passages.flatMap Passage.history ++ (entry ++ (opening ++ later))) request := by
        simpa only [List.append_assoc] using comesThere.asksIn asks
      cases isVisited with
      | script isScript context =>
          exact .inr (asksThere ⟨ScriptRun, _, [], later, further, .run _ context, rfl,
            .itself, leads⟩)
      | children within =>
          have shorter : later.length < size := by
            cases enters
            simp only [List.length_append, List.length_cons] at sized
            omega
          rcases ih later.length shorter leads rfl with
            ⟨before, entryThere, inner, there, goOn, deeper, entersThere, rfl, first⟩ | inScript
          · refine .inl ⟨_, entryThere, inner, there, goOn, .inside approach enters comes deeper,
              entersThere, ?_, first⟩
            simp only [List.append_assoc]
          · exact .inr (asksThere inScript)

/-- A script reaches out by a call of its own, or inside of a script that it runs meanwhile. -/
theorem Script.reaches {script : Script} {context : Context} {history : List (Exchange Unit)}
    {next : request.Answer → Program ScriptRun}
    (leads : (script.run setting context).Leads history (.ask request next))
    (outward : request.isOutward) :
    (∃ step, script.Calls setting context history step request) ∨
      ∃ before later inner innerContext goOn, before ≠ [] ∧ history = before ++ later ∧
        (script.run setting context).ComesUpon before (Script.run setting inner innerContext) ∧
          (Script.run setting inner innerContext).Leads later (.ask request goOn) := by
  rcases script with ⟨id, name, order, steps⟩
  rcases Program.Leads.goes_past leads rfl outward with ⟨start, began, rest, rfl, begins⟩
  change ((do
    Visit.moveTo fun context => context.enterScript name
    Visit.siblings (Step.visits setting steps) : Visit Flow).run.run ⟨context, [], []⟩ >>=
      fun ended => _).Leads rest (.ask request next) at begins
  rcases begins.ask_of_bind with ⟨further, moves⟩ |
    ⟨⟨outcome, after⟩, before, later, rfl, -, behind⟩
  · rcases Program.Leads.goes_past moves rfl outward with ⟨_, moved, visited, rfl, visits⟩
    rcases Visit.siblings_reach visits outward with
      ⟨before, entry, step, there, goOn, approach, enters, rfl, first⟩ | inScript
    · exact .inl ⟨step, .intro start approach enters first⟩
    · rcases inScript with ⟨_, _, opening, later, goOn, ⟨inner, innerContext⟩, rfl, comes, leads⟩
      have comesThere := (Script.comesUpon_steps ⟨id, name, order, steps⟩ context start began
        moved).trans comes
      exact .inr ⟨_, later, inner, innerContext, goOn, by simp, rfl, comesThere, leads⟩
  · -- Behind its steps a script asks for nothing but the time.
    rcases outcome with (_ | _ | error) | flow
    · rcases Program.Leads.goes_past behind rfl outward with ⟨_, _, _, -, ends⟩
      exact nomatch ends
    · exact nomatch behind
    · rcases Program.Leads.goes_past behind rfl outward with ⟨_, _, _, -, ends⟩
      exact nomatch ends
    · rcases Program.Leads.goes_past behind rfl outward with ⟨_, _, _, -, ends⟩
      exact nomatch ends

/-- Whatever a program reaches out for that does so only inside of scripts, a step of one of them
asks for it. -/
theorem Program.ReachesOutIn.exists_call {program : Program α}
    (reaches : program.ReachesOutIn (Program.IsScript setting)) {history : List (Exchange Unit)}
    {next : request.Answer → Program α} (leads : program.Leads history (.ask request next))
    (outward : request.isOutward) :
    ∃ script context before since step,
      program.ComesUpon before (Script.run setting script context) ∧
        script.Calls setting context since step request ∧ history = before ++ since := by
  have inside {before since : List (Exchange Unit)} {script : Script} {context : Context}
      {next : request.Answer → Program ScriptRun}
      (comes : program.ComesUpon before (script.run setting context))
      (leads : (script.run setting context).Leads since (.ask request next)) :
      ∃ inner innerContext earlier later step,
        program.ComesUpon earlier (Script.run setting inner innerContext) ∧
          inner.Calls setting innerContext later step request ∧
            before ++ since = earlier ++ later := by
    induction sized : since.length using Nat.strongRecOn
      generalizing before since script context next with
    | ind size ih =>
        rcases Script.reaches leads outward with ⟨step, calls⟩ |
          ⟨earlier, later, inner, innerContext, goOn, goneOn, rfl, further, leads⟩
        · exact ⟨script, context, before, since, step, comes, calls, rfl⟩
        · have shorter : later.length < size := by
            have := List.length_pos_iff.mpr goneOn
            simp only [List.length_append] at sized
            omega
          rw [← List.append_assoc]
          exact ih later.length shorter (comes.trans further) leads rfl
  rcases reaches history request next leads outward with
    ⟨_, _, before, since, goOn, ⟨script, context⟩, rfl, comes, leads⟩
  exact inside comes leads

end Calls

end TestEngine
