import TestEngine.Proofs.Script.Arrival

/-!
# The way to a step

A run of a script comes to its steps from the outside to the inside: it has gone through siblings
that led on to the next one, it has entered a step, and that has gone through rounds, has got a lock
or has begun another script before it visited what is inside. `Step.Comes` says of a history and a
frame that the visit of a step comes to some step inside of it in this way. Nothing is left open on
the way, neither what was asked nor what the store has become, and the run goes on with what the
step that it has come to does.
-/

namespace TestEngine

variable {α β γ ν : Type}

/-! ### What is inside -/

/-- The steps that are visited inside a step. -/
def StepKind.inside : StepKind → List Step
  | .condition ⟨_, children⟩ => children
  | .execution children => children
  | .loop _ children => children
  | .foreach _ _ children => children
  | .lock _ _ children => children
  | .script inner => inner.steps
  | .logger .. => []
  | .textMessage _ => []
  | .action _ => []
  | .assertion _ => []
  | .breakLoop _ => []
  | .propertyAction _ => []
  | .function _ => []

/-- A step itself, or one that is visited inside it, at whatever depth. -/
inductive Step.Holds : Step → Step → Prop
  | itself {step : Step} : step.Holds step
  | deeper {outer child inner : Step} (childMem : child ∈ outer.kind.inside)
      (holds : child.Holds inner) : outer.Holds inner

def Script.Holds (script : Script) (inner : Step) : Prop := ∃ step ∈ script.steps, step.Holds inner

/-! ### Ways into bodies -/

/-- How a counted loop comes to its body from an iteration on, and in which frame the body begins.
It may have gone through the body before, as long as that led on to the next iteration. -/
inductive Visit.Iterates (bounds : LoopBounds) (deadline : Option Nat) (body : Visit Flow) :
    (remaining place : Nat) → Frame → List (Exchange ν) → Frame → Prop
  | here {remaining place : Nat} {frame : Frame} {wait look : List (Exchange ν)}
      (waits : Waits bounds.wait place wait true) (looks : Looks deadline look false) :
      Iterates bounds deadline body (remaining + 1) place frame (wait ++ look)
        (frame.withIndex place bounds.index)
  | next {remaining place : Nat} {frame middle within : Frame}
      {wait look visited later : List (Exchange ν)} (waits : Waits bounds.wait place wait true)
      (looks : Looks deadline look false)
      (visits : body.Yields (frame.withIndex place bounds.index) visited (.ok .next) middle)
      (iterates : Iterates bounds deadline body remaining (place + 1) middle later within) :
      Iterates bounds deadline body (remaining + 1) place frame
        (wait ++ (look ++ (visited ++ later))) within

/-- How a loop over items comes to its body, and in which frame the body begins. -/
inductive Visit.GoesThrough (element : String) (body : Visit Flow) :
    List Property → Frame → List (Exchange ν) → Frame → Prop
  | here {item : Property} {rest : List Property} {frame : Frame} :
      GoesThrough element body (item :: rest) frame [] (frame.put (item.renamed element))
  | next {item : Property} {rest : List Property} {frame middle within : Frame}
      {visited later : List (Exchange ν)}
      (visits : body.Yields (frame.put (item.renamed element)) visited (.ok .next) middle)
      (goesThrough : GoesThrough element body rest middle later within) :
      GoesThrough element body (item :: rest) frame (visited ++ later) within

/-- How a step comes to visit what is inside it, and in which frame that begins. -/
inductive StepKind.Opens (setting : Setting) :
    StepKind → Frame → List (Exchange ν) → Frame → Prop
  | condition {guard : Guard} {children : List Step} {frame : Frame}
      (holds : guard.holds frame.context.properties) :
      Opens setting (.condition ⟨guard, children⟩) frame [] frame
  | execution {children : List Step} {frame : Frame} :
      Opens setting (.execution children) frame [] frame
  | loop {bounds : LoopBounds} {children : List Step} {frame within : Frame}
      {timing history : List (Exchange ν)} {deadline : Option Nat}
      (times : Times bounds.maxDuration timing deadline)
      (iterates : Visit.Iterates bounds deadline (Visit.siblings (Step.visits setting children))
        bounds.limit 0 frame history within) :
      Opens setting (.loop bounds children) frame (timing ++ history) within
  | foreach {list element : String} {children : List Step} {frame within : Frame}
      {items : List Property} {history : List (Exchange ν)}
      (hasItems : Visit.foreachItems frame.context.properties list element = .ok items)
      (goesThrough : Visit.GoesThrough element (Visit.siblings (Step.visits setting children))
        items frame history within) :
      Opens setting (.foreach list element children) frame history within
  | lock {name : String} {timeout : Option UInt64} {children : List Step} {frame : Frame}
      (acquired : ν) : Opens setting (.lock name timeout children) frame
        [⟨.acquire name ((timeout.map UInt64.toNat).getD setting.lockTimeout), .granted, acquired⟩]
        frame
  | script {script : Script} {frame : Frame} (start : Request.now.Answer) (began moved : ν) :
      Opens setting (.script script) frame
        [⟨.now, start, began⟩,
          ⟨.moveTo (script.opening frame.context).context.cursor, (), moved⟩]
        (script.opening frame.context)

/-! ### Ways to steps -/

/-- How the visit of a step comes to that step, or to one inside it: what is asked until it does
what its kind says, and in which frame it does. -/
inductive Step.Comes (setting : Setting) : Step → Frame → List (Exchange ν) → Step → Frame → Prop
  | itself {step : Step} {frame : Frame} {entry : List (Exchange ν)}
      (enters : frame.Enters step entry) :
      Comes setting step frame entry step (frame.entering step)
  | inside {outer inner step : Step} {frame within reached there : Frame}
      {earlier later : List Step} {passages : List (Passage ν)}
      {entry opening rest : List (Exchange ν)} (enters : frame.Enters outer entry)
      (opens : outer.kind.Opens setting (frame.entering outer) opening within)
      (sorted : inOrder Step.order outer.kind.inside = earlier ++ inner :: later)
      (succession : Succession setting earlier within passages (.ok .next) reached)
      (comes : Comes setting inner reached rest step there) :
      Comes setting outer frame
        (entry ++ (opening ++ (passages.flatMap Passage.history ++ rest))) step there

/-- How the visits of steps one after the other come to a step. -/
inductive Step.ListComes (setting : Setting) (steps : List Step) (frame : Frame) :
    List (Exchange ν) → Step → Frame → Prop
  | intro {inner step : Step} {reached there : Frame} {earlier later : List Step}
      {passages : List (Passage ν)} {rest : List (Exchange ν)}
      (split : steps = earlier ++ inner :: later)
      (succession : Succession setting earlier frame passages (.ok .next) reached)
      (comes : inner.Comes setting reached rest step there) :
      ListComes setting steps frame (passages.flatMap Passage.history ++ rest) step there

/-- How what a step does comes to a step inside it. -/
inductive StepKind.Comes (setting : Setting) (kind : StepKind) (frame : Frame) :
    List (Exchange ν) → Step → Frame → Prop
  | intro {step : Step} {within there : Frame} {opening rest : List (Exchange ν)}
      (opens : kind.Opens setting frame opening within)
      (comes : Step.ListComes setting (inOrder Step.order kind.inside) within rest step there) :
      Comes setting kind frame (opening ++ rest) step there

/-- How a run of a script comes to a step. -/
def Script.Comes (setting : Setting) (script : Script) (context : Context)
    (history : List (Exchange ν)) (step : Step) (there : Frame) : Prop :=
  (StepKind.script script).Comes setting ⟨context, [], []⟩ history step there

section Ways

variable {setting : Setting} {step inner : Step} {frame there : Frame}
  {history : List (Exchange ν)}

theorem StepKind.Comes.behind {entry rest : List (Exchange ν)} (enters : frame.Enters step entry)
    (comes : step.kind.Comes setting (frame.entering step) rest inner there) :
    step.Comes setting frame (entry ++ rest) inner there := by
  rcases comes with ⟨opens, sorted, succession, comes⟩
  exact .inside enters opens sorted succession comes

theorem Step.ListComes.first {rest : List Step}
    (comes : step.Comes setting frame history inner there) :
    Step.ListComes setting (step :: rest) frame history inner there :=
  .intro (List.nil_append _).symm .done comes

theorem Step.ListComes.later {rest : List Step} {middle : Frame} {visited : List (Exchange ν)}
    (visits : (step.visit setting).Yields frame visited (.ok .next) middle)
    (comes : Step.ListComes setting rest middle history inner there) :
    Step.ListComes setting (step :: rest) frame (visited ++ history) inner there := by
  rcases comes with ⟨rfl, succession, comes⟩
  rw [← List.append_assoc]
  exact .intro (List.cons_append ..).symm (.next visits succession) comes

theorem Step.Comes.holds (comes : step.Comes setting frame history inner there) :
    step.Holds inner := by
  induction comes with
  | itself => exact .itself
  | inside _ _ sorted _ _ ih =>
      refine .deeper ((inOrder_perm Step.order _).mem_iff.mp ?_) ih
      rw [sorted]
      simp

theorem Script.Comes.holds {script : Script} {context : Context}
    (comes : script.Comes setting context history inner there) : script.Holds inner := by
  rcases comes with ⟨opens, sorted, succession, comes⟩
  refine ⟨_, (inOrder_perm Step.order _).mem_iff.mp ?_, comes.holds⟩
  rw [StepKind.inside] at sorted
  rw [sorted]
  simp

end Ways

/-! ### Runs that go these ways -/

theorem Visit.Yields.comesUpon {visit : Visit α} {frame middle : Frame}
    {first later : List (Exchange ν)} {value : α}
    (yields : visit.Yields frame first (.ok value) middle) {next : α → Visit β}
    {inner : Program γ} (comes : ((next value).run.run middle).ComesUpon later inner) :
    ((visit >>= next).run.run frame).ComesUpon (first ++ later) inner :=
  .trans (.of_leads (Program.Leads.bind (Program.Yields.leads yields) _)) comes

section Loops

variable {frame within : Frame} {history : List (Exchange ν)} {body : Visit Flow}

theorem Waits.yields {wait : UInt64} {place : Nat} (waits : Waits wait place history true) :
    (Visit.waitBefore wait place).Yields frame history (.ok ()) frame := by
  rw [Visit.waitBefore]
  cases waits with
  | atOnce noWait =>
      have isOff : ¬(decide (0 < place) && decide (wait ≠ 0)) = true := by
        rcases noWait with rfl | rfl <;> simp
      rw [if_neg isOff]
      exact .done
  | slept between hasWait slept checked =>
      have isOn : (decide (0 < place) && decide (wait ≠ 0)) = true := by simp [between, hasWait]
      rw [if_pos isOn]
      exact .ask (.ask .done)

theorem Looks.yields {deadline : Option Nat} {timeUp : Bool}
    (looks : Looks deadline history timeUp) :
    (Visit.isOver deadline).Yields frame history (.ok timeUp) frame := by
  cases looks with
  | untimed => exact .done
  | looked deadline moment note => exact .ask .done

theorem Times.yields {maxDuration : UInt64} {deadline : Option Nat}
    (times : Times maxDuration history deadline) :
    (Visit.setDeadline maxDuration).Yields frame history (.ok deadline) frame := by
  cases times with
  | untimed noDuration =>
      rw [noDuration]
      exact .done
  | timed hasDuration begun note =>
      rw [Visit.setDeadline, if_pos hasDuration]
      exact .ask .done

theorem Visit.Iterates.comesUpon {bounds : LoopBounds} {deadline : Option Nat}
    {remaining place : Nat}
    (iterates : Iterates bounds deadline body remaining place frame history within) :
    ((Visit.iterate bounds deadline body remaining place).run.run frame).ComesUpon history
      (body.run.run within) := by
  induction iterates with
  | @here _ _ _ _ look waits looks =>
      rw [← List.append_nil look]
      apply Yields.comesUpon waits.yields
      apply Yields.comesUpon looks.yields
      cases isIndex : bounds.index <;> exact .bind .itself _
  | next waits looks visits _ ih =>
      apply Yields.comesUpon waits.yields
      apply Yields.comesUpon looks.yields
      cases isIndex : bounds.index <;> rw [isIndex] at visits <;> exact visits.comesUpon ih

theorem Visit.GoesThrough.comesUpon {element : String} {items : List Property}
    (goesThrough : GoesThrough element body items frame history within) :
    ((Visit.eachItem element body items).run.run frame).ComesUpon history
      (body.run.run within) := by
  induction goesThrough with
  | here => exact .bind .itself _
  | next visits _ ih =>
      apply Visit.Yields.comesUpon visits
      exact ih

end Loops

section Steps

variable {setting : Setting} {step inner : Step} {frame within there : Frame}
  {history : List (Exchange ν)}

theorem StepKind.Opens.comesUpon {kind : StepKind}
    (opens : kind.Opens setting frame history within) :
    ((kind.visit setting).run.run frame).ComesUpon history
      ((Visit.siblings (Step.visits setting kind.inside)).run.run within) := by
  cases opens with
  | @condition guard children _ holds =>
      rw [StepKind.visit]
      change ((if guard.holds frame.context.properties then Visit.siblings (Step.visits setting
        children) else pure .next : Visit Flow).run.run frame).ComesUpon _ _
      rw [if_pos holds]
      exact .itself
  | execution =>
      rw [StepKind.visit]
      exact .itself
  | loop times iterates =>
      rw [StepKind.visit]
      exact Visit.Yields.comesUpon times.yields iterates.comesUpon
  | @foreach list element children _ _ items _ hasItems goesThrough =>
      rw [StepKind.visit]
      change ((Visit.ofExcept (Visit.foreachItems frame.context.properties list element) >>=
        fun items => _).run.run frame).ComesUpon _ _
      rw [hasItems]
      change ((Visit.attempt (Visit.eachItem element _ items) >>= fun outcome => _).run.run
        frame).ComesUpon _ _
      rw [Visit.run_attempt]
      exact goesThrough.comesUpon.bind _
  | @lock name timeout children _ acquired =>
      have grants : ((Visit.attempt (Visit.siblings (Step.visits setting children)) >>=
          fun outcome => Visit.ask (.release name) >>= fun _ =>
            Visit.conclude outcome).run.run frame).ComesUpon ([] : List (Exchange ν))
              ((Visit.siblings (Step.visits setting children)).run.run frame) := by
        rw [Visit.run_attempt]
        exact .bind .itself _
      rw [StepKind.visit]
      exact .trans (.of_leads (.ask .here)) grants
  | script start began moved =>
      rw [StepKind.visit]
      change ((ExceptT.lift (StateT.lift (Script.run setting _ frame.context)) >>= fun ran =>
        _ : Visit Flow).run.run frame).ComesUpon _ _
      rw [Visit.run_lift]
      exact .bind (Script.comesUpon_steps _ frame.context start began moved) _

/-- A visit that comes to a step goes on with what the step does. -/
theorem Step.Comes.comesUpon (comes : step.Comes setting frame history inner there) :
    ((step.visit setting).run.run frame).ComesUpon history
      ((inner.kind.visit setting).run.run there) := by
  induction comes with
  | itself enters => exact enters.comesUpon
  | inside enters opens sorted succession _ ih =>
      exact enters.comesUpon.trans (opens.comesUpon.trans ((succession.comesUpon sorted).trans ih))

theorem Script.Comes.comesUpon {script : Script} {context : Context}
    (comes : script.Comes setting context history inner there) :
    (script.run setting context).ComesUpon history ((inner.kind.visit setting).run.run there) := by
  rcases comes with ⟨opens, sorted, succession, comes⟩
  rcases opens with _ | _ | _ | _ | _ | ⟨start, began, moved⟩
  exact (script.comesUpon_steps context start began moved).trans
    ((succession.comesUpon sorted).trans comes.comesUpon)

end Steps

end TestEngine
