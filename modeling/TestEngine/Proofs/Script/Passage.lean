import TestEngine.Proofs.Order
import TestEngine.Proofs.Script.Law
import TestEngine.Proofs.Script.Round

/-!
# Passages through steps

A passage is a visit of a step that came to an outcome, together with all that was asked meanwhile.
The passages through siblings make up a `Succession`: it follows the visiting order and ends with
the first step that does not lead on to the next one. What a script has gone through can be taken
apart into such successions, along the steps that hold others.
-/

namespace TestEngine

variable {ν : Type}

/-- A visit of a step that came to an outcome, and what it has gone through. -/
structure Passage (ν : Type) where
  step : Step
  before : Frame
  history : List (Exchange ν)
  outcome : Except Abort Flow
  after : Frame

def Passage.Occurs (setting : Setting) (passage : Passage ν) : Prop :=
  (passage.step.visit setting).Yields passage.before passage.history passage.outcome passage.after

/-! ### Siblings -/

/-- Passages through steps one after the other, each from the frame that the one before has left.
The first one that does not lead on to the next step is the last one. -/
inductive Succession (setting : Setting) :
    List Step → Frame → List (Passage ν) → Except Abort Flow → Frame → Prop
  | done {frame : Frame} : Succession setting [] frame [] (.ok .next) frame
  | last {step : Step} {steps : List Step} {frame after : Frame} {history : List (Exchange ν)}
      {outcome : Except Abort Flow}
      (occurs : (⟨step, frame, history, outcome, after⟩ : Passage ν).Occurs setting)
      (ends : outcome ≠ .ok .next) :
      Succession setting (step :: steps) frame [⟨step, frame, history, outcome, after⟩] outcome
        after
  | next {step : Step} {steps : List Step} {frame middle after : Frame}
      {history : List (Exchange ν)} {passages : List (Passage ν)} {outcome : Except Abort Flow}
      (occurs : (⟨step, frame, history, .ok .next, middle⟩ : Passage ν).Occurs setting)
      (rest : Succession setting steps middle passages outcome after) :
      Succession setting (step :: steps) frame
        (⟨step, frame, history, .ok .next, middle⟩ :: passages) outcome after

namespace Succession

variable {setting : Setting} {steps : List Step} {frame after : Frame}
  {passages : List (Passage ν)} {outcome : Except Abort Flow}

theorem occurs (succession : Succession setting steps frame passages outcome after) :
    ∀ passage ∈ passages, passage.Occurs setting := by
  induction succession with
  | done => simp
  | last occurs _ => simpa using occurs
  | next occurs _ ih => exact List.forall_mem_cons.mpr ⟨occurs, ih⟩

/-- If siblings are left, then by the last one that was visited. -/
theorem getLast?_of_leave (succession : Succession setting steps frame passages outcome after)
    (left : outcome = .ok .leave) :
    ∃ passage ∈ passages.getLast?, passage.outcome = .ok .leave := by
  induction succession with
  | done => exact nomatch left
  | last _ _ => exact ⟨_, rfl, left⟩
  | next _ _ ih =>
      rcases ih left with ⟨last, isLast, lastLeft⟩
      rcases List.getLast?_eq_some_iff.mp isLast with ⟨front, rfl⟩
      exact ⟨last, by rw [← List.cons_append]; exact List.getLast?_concat, lastLeft⟩

/-- Behind a step that leads on the next one is visited, from the frame that the former has left. -/
theorem follows (succession : Succession setting steps frame passages outcome after)
    {index : Nat} {passage : Passage ν} {step : Step} (visited : passages[index]? = some passage)
    (goesOn : passage.outcome = .ok .next) (isNext : steps[index + 1]? = some step) :
    ∃ next, passages[index + 1]? = some next ∧ next.step = step ∧ next.before = passage.after := by
  induction succession generalizing index with
  | done => exact nomatch visited
  | last _ ends =>
      rcases index with _ | index
      · obtain rfl : _ = passage := by simpa using visited
        exact absurd goesOn ends
      · simp at visited
  | next _ rest ih =>
      rcases index with _ | index
      · obtain rfl : _ = passage := by simpa using visited
        rw [List.getElem?_cons_succ] at isNext
        cases rest with
        | done => exact nomatch isNext
        | last _ _ => exact ⟨_, rfl, by simpa using isNext, rfl⟩
        | next _ _ => exact ⟨_, rfl, by simpa using isNext, rfl⟩
      · exact ih (by simpa using visited) (by simpa using isNext)

end Succession

theorem Visit.yields_sequence {setting : Setting} {steps : List Step} {frame after : Frame}
    {history : List (Exchange ν)} {outcome : Except Abort Flow}
    (yields : (sequence (steps.map (Step.visit setting))).Yields frame history outcome after) :
    ∃ passages, history = passages.flatMap Passage.history ∧
      Succession setting steps frame passages outcome after := by
  induction steps generalizing frame history with
  | nil =>
      rcases yields_pure.mp yields with ⟨rfl, rfl, rfl⟩
      exact ⟨[], rfl, .done⟩
  | cons step steps ih =>
      rw [List.map_cons, sequence, yields_bind] at yields
      rcases yields with ⟨reason, rfl, stopped⟩ | ⟨flow, middle, first, rest, rfl, went, yields⟩
      · exact ⟨[⟨step, frame, history, .error reason, after⟩], by simp, .last stopped (by simp)⟩
      · cases flow with
        | leave =>
            rcases yields_pure.mp yields with ⟨rfl, rfl, rfl⟩
            exact ⟨[⟨step, frame, first, .ok .leave, after⟩], by simp, .last went (by simp)⟩
        | next =>
            rcases ih yields with ⟨passages, rfl, succession⟩
            exact ⟨⟨step, frame, first, .ok .next, middle⟩ :: passages, rfl,
              .next went succession⟩

/-- Siblings are visited in their order, one after the other. -/
theorem Visit.yields_siblings {setting : Setting} {steps : List Step} {frame after : Frame}
    {history : List (Exchange ν)} {outcome : Except Abort Flow}
    (yields : (siblings (Step.visits setting steps)).Yields frame history outcome after) :
    ∃ passages, history = passages.flatMap Passage.history ∧
      Succession setting (inOrder Step.order steps) frame passages outcome after := by
  rw [siblings, Step.visits_eq_map, inOrder_map, List.map_map] at yields
  exact yields_sequence yields

/-! ### Entering a step -/

/-- The frame in which a step does what its kind says. -/
def Frame.entering (frame : Frame) (step : Step) : Frame :=
  { frame with context := frame.context.enterStep step.label }

@[simp]
theorem Frame.entering_properties (frame : Frame) (step : Step) :
    (frame.entering step).context.properties = frame.context.properties := rfl

/-- What a step asks before it does what its kind says. -/
inductive Frame.Enters (frame : Frame) (step : Step) : List (Exchange ν) → Prop
  | intro (checked moved : ν) : Enters frame step
      [⟨.checkpoint, true, checked⟩, ⟨.moveTo (frame.entering step).context.cursor, (), moved⟩]

/-- A passage that goes no further than the checkpoint of its step. -/
def Passage.IsInterrupted (passage : Passage ν) : Prop :=
  (∃ note, passage.history = [⟨.checkpoint, false, note⟩]) ∧
    passage.outcome = .error .interrupted ∧ passage.after = passage.before

theorem Passage.Occurs.enters {setting : Setting} {passage : Passage ν}
    (occurs : passage.Occurs setting) :
    passage.IsInterrupted ∨ ∃ entry rest, passage.history = entry ++ rest ∧
      passage.before.Enters passage.step entry ∧
        (passage.step.kind.visit setting).Yields (passage.before.entering passage.step) rest
          passage.outcome passage.after := by
  rcases passage with ⟨⟨id, order, kind⟩, before, history, outcome, after⟩
  change (Step.visit setting ⟨id, order, kind⟩).Yields before history outcome after at occurs
  rw [Step.visit, Visit.yields_checkpoint_bind] at occurs
  rcases occurs with ⟨goesOn, checked, rest, rfl, occurs⟩
  cases goesOn with
  | false =>
      rcases occurs with ⟨rfl, rfl, rfl⟩
      exact .inl ⟨⟨checked, rfl⟩, rfl, rfl⟩
  | true =>
      rcases Visit.yields_moveTo_bind.mp occurs with ⟨moved, rest, rfl, yields⟩
      exact .inr ⟨_, rest, rfl, .intro checked moved, yields⟩

/-! ### Steps that group others -/

/-- What steps of a kind that groups others ask before and behind those. -/
inductive StepKind.Groups : StepKind → List Step → List (Exchange ν) → List (Exchange ν) → Prop
  | condition {guard : Guard} {children : List Step} :
      Groups (.condition ⟨guard, children⟩) children [] []
  | execution {children : List Step} : Groups (.execution children) children [] []
  | lock {name : String} {timeout : Option UInt64} {children : List Step} (wait : Nat)
      (acquired released : ν) : Groups (.lock name timeout children) children
        [⟨.acquire name wait, .granted, acquired⟩] [⟨.release name, (), released⟩]

/-- A passage through a step that groups others, with the passages through those. -/
def Passage.Holds (setting : Setting) (passage : Passage ν) (inside : List (Passage ν)) : Prop :=
  ∃ children entry opening closing,
    passage.history = entry ++ (opening ++ inside.flatMap Passage.history ++ closing) ∧
      passage.before.Enters passage.step entry ∧
        passage.step.kind.Groups children opening closing ∧
          Succession setting (inOrder Step.order children) (passage.before.entering passage.step)
            inside passage.outcome passage.after

/-! ### Scripts -/

/-- The frame in which a script begins. -/
def Script.opening (script : Script) (context : Context) : Frame :=
  ⟨context.enterScript script.name, [], []⟩

end TestEngine
