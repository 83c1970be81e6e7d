import TestEngine.Proofs.Walk.Rerun

/-!
# Visits side by side

Two visits are compared request by request from frames that are related, and they have to end alike
in frames that are related again. What the frames may differ in, and when two requests count as the
same, is left open: the rules for putting visits together are the same for all such comparisons.
-/

namespace TestEngine

variable {α β γ δ : Type}

/-- A way of comparing two programs along their requests. -/
structure Comparison where
  relates {α β : Type} : (α → β → Prop) → Program α → Program β → Prop
  done {α β : Type} {same : α → β → Prop} {value : α} {other : β} (sameValue : same value other) :
    relates same (.done value) (.done other)
  ask {α β : Type} {same : α → β → Prop} {request : Request} {next : request.Answer → Program α}
    {otherNext : request.Answer → Program β}
    (goesOn : ∀ answer, relates same (next answer) (otherNext answer)) :
    relates same (.ask request next) (.ask request otherNext)
  bind {α β γ δ : Type} {relation : α → β → Prop} {same : γ → δ → Prop} {program : Program α}
    {other : Program β} {next : α → Program γ} {otherNext : β → Program δ}
    (first : relates relation program other)
    (goesOn : ∀ value otherValue, relation value otherValue →
      relates same (next value) (otherNext otherValue)) :
    relates same (program >>= next) (other >>= otherNext)

theorem Comparison.request (comparison : Comparison) {same : α → β → Prop} {request : Request}
    {next : request.Answer → Program α} {otherNext : request.Answer → Program β}
    (goesOn : ∀ answer, comparison.relates same (next answer) (otherNext answer)) :
    comparison.relates same (Program.request request >>= next)
      (Program.request request >>= otherNext) := comparison.ask goesOn

/-- The comparison of programs that make the very same requests. -/
def Comparison.matching : Comparison where
  relates := Program.Matches
  done := .done
  ask := .ask
  bind := .bind

namespace Visit

/-- Visits that end in the same way, and leave related frames, if they begin in given frames. -/
abbrev RelatedFrom (comparison : Comparison) (frames : Frame → Frame → Prop)
    (visit other : Visit α) (frame otherFrame : Frame) : Prop :=
  comparison.relates (fun ended otherEnded => ended.1 = otherEnded.1 ∧ frames ended.2 otherEnded.2)
    (visit.run.run frame) (other.run.run otherFrame)

/-- Visits that do so whenever they begin in related frames. -/
def Related (comparison : Comparison) (frames : Frame → Frame → Prop) (visit other : Visit α) :
    Prop :=
  ∀ frame otherFrame, frames frame otherFrame →
    visit.RelatedFrom comparison frames other frame otherFrame

namespace Related

variable {comparison : Comparison} {frames : Frame → Frame → Prop}

theorem pure (value : α) :
    Related comparison frames (Pure.pure value) (Pure.pure value) :=
  fun _ _ related => comparison.done ⟨rfl, related⟩

theorem abort (reason : Abort) :
    Related comparison frames (Visit.abort reason : Visit α) (Visit.abort reason) :=
  fun _ _ related => comparison.done ⟨rfl, related⟩

theorem fail (error : EngineError) :
    Related comparison frames (Visit.fail error : Visit α) (Visit.fail error) := abort _

theorem bind {visit other : Visit α} {next otherNext : α → Visit β}
    (first : visit.Related comparison frames other)
    (rest : ∀ value, (next value).Related comparison frames (otherNext value)) :
    (visit >>= next).Related comparison frames (other >>= otherNext) := by
  intro frame otherFrame related
  change comparison.relates _ (visit.run.run frame >>= fun ended => _)
    (other.run.run otherFrame >>= fun ended => _)
  refine comparison.bind (first frame otherFrame related) ?_
  rintro ⟨outcome, reached⟩ ⟨_, otherReached⟩ ⟨rfl, stillRelated⟩
  cases outcome with
  | ok value => exact rest value reached otherReached stillRelated
  | error reason => exact comparison.done ⟨rfl, stillRelated⟩

theorem lift {program other : Program α} {relation : α → α → Prop} {next otherNext : α → Visit β}
    (first : comparison.relates relation program other)
    (rest : ∀ value otherValue, relation value otherValue →
      (next value).Related comparison frames (otherNext otherValue)) :
    Related comparison frames (ExceptT.lift (StateT.lift program) >>= next)
      (ExceptT.lift (StateT.lift other) >>= otherNext) := by
  intro frame otherFrame related
  rw [RelatedFrom, run_lift, run_lift]
  apply comparison.bind first
  intro value otherValue sameValue
  exact rest value otherValue sameValue frame otherFrame related

theorem ask (request : Request) :
    Related comparison frames (Visit.ask request) (Visit.ask request) :=
  fun _ _ related => comparison.ask fun _ => comparison.done ⟨rfl, related⟩

theorem modify {change otherChange : Frame → Frame}
    (keeps : ∀ frame otherFrame, frames frame otherFrame →
      frames (change frame) (otherChange otherFrame)) :
    Related comparison frames (Visit.modify change) (Visit.modify otherChange) :=
  fun frame otherFrame related => comparison.done ⟨rfl, keeps frame otherFrame related⟩

theorem ofExcept (outcome : Except EngineError α) :
    Related comparison frames (Visit.ofExcept outcome) (Visit.ofExcept outcome) := by
  cases outcome with
  | ok value => exact pure value
  | error error => exact fail error

theorem conclude (outcome : Except Abort α) :
    Related comparison frames (Visit.conclude outcome) (Visit.conclude outcome) := by
  cases outcome with
  | ok value => exact pure value
  | error reason => exact abort reason

theorem attempt {visit other : Visit α} (related : visit.Related comparison frames other) :
    Related comparison frames (Visit.attempt visit) (Visit.attempt other) := by
  intro frame otherFrame framesRelated
  change comparison.relates _ (visit.run.run frame >>= fun ended => _)
    (other.run.run otherFrame >>= fun ended => _)
  refine comparison.bind (related frame otherFrame framesRelated) ?_
  rintro ⟨outcome, reached⟩ ⟨_, otherReached⟩ ⟨rfl, stillRelated⟩
  exact comparison.done ⟨rfl, stillRelated⟩

theorem checkpoint : Related comparison frames Visit.checkpoint Visit.checkpoint := by
  apply bind (ask _)
  intro goesOn
  split
  · exact pure _
  · exact abort _

theorem sequence {steps others : List (Visit Flow)}
    (related : List.Forall₂ (Related comparison frames) steps others) :
    Related comparison frames (Visit.sequence steps) (Visit.sequence others) := by
  induction related with
  | nil => exact pure _
  | cons first _ ih =>
      apply bind first
      intro flow
      cases flow with
      | next => exact ih
      | leave => exact pure _

/-! ### Loops and locks -/

theorem waitBefore (wait : UInt64) (iteration : Nat) :
    Related comparison frames (Visit.waitBefore wait iteration)
      (Visit.waitBefore wait iteration) := by
  rw [Visit.waitBefore]
  split
  · exact bind (ask _) fun _ => checkpoint
  · exact pure _

theorem isOver (deadline : Option Nat) :
    Related comparison frames (Visit.isOver deadline) (Visit.isOver deadline) := by
  cases deadline with
  | none => exact pure _
  | some deadline => exact bind (ask _) fun _ => pure _

theorem setDeadline (maxDuration : UInt64) :
    Related comparison frames (Visit.setDeadline maxDuration) (Visit.setDeadline maxDuration) := by
  rw [Visit.setDeadline]
  split
  · exact bind (ask _) fun _ => pure _
  · exact pure _

section Bodies

variable {body otherBody : Visit Flow}

theorem iterate (bounds : LoopBounds) (deadline : Option Nat)
    (binds : ∀ iteration, Related comparison frames (Visit.bindIndex iteration bounds.index)
      (Visit.bindIndex iteration bounds.index))
    (related : body.Related comparison frames otherBody) (remaining iteration : Nat) :
    Related comparison frames (Visit.iterate bounds deadline body remaining iteration)
      (Visit.iterate bounds deadline otherBody remaining iteration) := by
  induction remaining generalizing iteration with
  | zero => exact pure _
  | succ remaining ih =>
      apply bind (waitBefore _ _)
      intro _
      apply bind (isOver _)
      intro timeIsUp
      split
      · exact pure _
      · apply bind (binds iteration)
        intro _
        apply bind related
        intro flow
        cases flow with
        | next => exact ih _
        | leave => exact pure _

theorem loop (bounds : LoopBounds)
    (binds : ∀ iteration, Related comparison frames (Visit.bindIndex iteration bounds.index)
      (Visit.bindIndex iteration bounds.index))
    (related : body.Related comparison frames otherBody) :
    Related comparison frames (Visit.loop bounds body) (Visit.loop bounds otherBody) :=
  bind (setDeadline _) fun deadline => iterate bounds deadline binds related _ _

theorem eachItem (element : String)
    (binds : ∀ item : Property, Related comparison frames (Visit.put (item.renamed element))
      (Visit.put (item.renamed element)))
    (related : body.Related comparison frames otherBody) (items : List Property) :
    Related comparison frames (Visit.eachItem element body items)
      (Visit.eachItem element otherBody items) := by
  induction items with
  | nil => exact pure _
  | cons item rest ih =>
      apply bind (binds item)
      intro _
      apply bind related
      intro flow
      cases flow with
      | next => exact ih
      | leave => exact pure _

theorem lock (name : String) (timeout : Nat) (related : body.Related comparison frames otherBody) :
    Related comparison frames (Visit.lock name timeout body)
      (Visit.lock name timeout otherBody) := by
  apply bind (ask _)
  intro answer
  cases answer with
  | granted => exact bind (attempt related) fun outcome => bind (ask _) fun _ => conclude outcome
  | timedOut => exact fail _
  | cancelled => exact bind checkpoint fun _ => abort _

end Bodies

/-! ### Answers of capabilities -/

theorem takeReply (reply : Reply (Except EngineError α)) :
    Related comparison frames (Visit.takeReply reply) (Visit.takeReply reply) := by
  rcases reply with (error | answer) | _ | _
  · exact fail error
  · exact pure answer
  · exact abort _
  · exact abort _

theorem waitAfter (delay : Option UInt64) :
    Related comparison frames (Visit.waitAfter delay) (Visit.waitAfter delay) := by
  cases delay with
  | none => exact pure _
  | some delay => exact ask _

theorem takeVerification (message : String) (answer : Option (Except EngineError Unit)) :
    Related comparison frames (Visit.takeVerification message answer)
      (Visit.takeVerification message answer) := by
  rw [Visit.takeVerification.eq_def]
  split
  · exact pure _
  · exact fail _
  · exact fail _
  · exact abort _

theorem takeFunctionReply {name : String} {lines : List String}
    (logs : Related comparison frames (Visit.log .info lines) (Visit.log .info lines))
    (reply : Reply (Except EngineError (List Property))) :
    Related comparison frames (Visit.takeFunctionReply name lines reply)
      (Visit.takeFunctionReply name lines reply) := by
  cases reply with
  | returned answer => exact bind logs fun _ => ofExcept _
  | abandoned => exact bind logs fun _ => abort _
  | crashed => exact abort _

end Related

end Visit

end TestEngine
