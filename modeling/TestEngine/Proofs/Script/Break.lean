import TestEngine.Proofs.Script.Passage

/-!
# Breaks

A break leaves the nearest loop around it and nothing else. Of the visits of steps only that of a
break comes to `Flow.leave` by itself; conditions, groupings and locks pass it on from the step
inside them that was visited last, loops go on behind themselves, and a script that is left has come
to its end. So a step that leaves can be followed down to the break that was reached in it, and
`Setting.ConfinesBreaks` says how far the break reaches.
-/

namespace TestEngine

variable {ν : Type}

/-! ### Visits that do not leave -/

namespace Visit

/-- A visit that never leaves the loop around it. -/
def Stays (ν : Type) (visit : Visit Flow) : Prop :=
  ∀ (frame : Frame) (history : List (Exchange ν)) (outcome : Except Abort Flow) (after : Frame),
    visit.Yields frame history outcome after → outcome ≠ .ok .leave

theorem stays_next : Stays ν (return .next) := by
  intro frame history outcome after yields
  rw [(yields_pure.mp yields).2.1]
  simp

theorem stays_abort (reason : Abort) : Stays ν (abort reason) := by
  intro frame history outcome after yields
  rw [(yields_abort.mp yields).2.1]
  simp

theorem stays_fail (error : EngineError) : Stays ν (fail error) := stays_abort _

/-- What comes last decides. -/
theorem Stays.bind {α : Type} {visit : Visit α} {next : α → Visit Flow}
    (stays : ∀ value, (next value).Stays ν) : (visit >>= next).Stays ν := by
  intro frame history outcome after yields
  rcases yields_bind.mp yields with ⟨reason, rfl, _⟩ | ⟨value, _, _, _, _, _, yields⟩
  · simp
  · exact stays value _ _ _ _ yields

theorem enterResponse_stays (action : Action) (response : ActionResponse) :
    (enterResponse action response).Stays ν := by
  rw [enterResponse]
  split
  · exact .bind fun _ => stays_fail _
  · exact .bind fun _ => .bind fun _ => stays_next

theorem action_stays (setting : Setting) (action : Action) :
    (Visit.action setting action).Stays ν :=
  .bind fun _ => .bind fun _ => .bind fun _ => .bind fun _ => .bind fun _ => .bind fun _ =>
    .bind fun _ => enterResponse_stays _ _

theorem takeVerification_stays (message : String) (answer : Option (Except EngineError Unit)) :
    (takeVerification message answer).Stays ν := by
  rw [takeVerification.eq_def]
  split
  · exact stays_next
  · exact stays_fail _
  · exact stays_fail _
  · exact stays_abort _

theorem verify_stays (setting : Setting) (message check name : String) :
    (verify setting message check name).Stays ν := by
  rw [verify]
  split
  · exact .bind fun _ => .bind fun _ => .bind fun _ => takeVerification_stays _ _
  · exact stays_fail _

theorem assertion_stays (setting : Setting) (assertion : Assertion) :
    (Visit.assertion setting assertion).Stays ν := by
  rw [Visit.assertion]
  split
  · exact stays_fail _
  · split
    · exact verify_stays _ _ _ _
    · exact stays_next

theorem function_stays (setting : Setting) (function : Function) :
    (Visit.function setting function).Stays ν := by
  rw [Visit.function]
  split
  · exact .bind fun _ => .bind fun _ => .bind fun _ => .bind fun _ => .bind fun _ => stays_next
  · exact stays_fail _

theorem propertyAction_stays (action : PropertyAction) :
    (Visit.propertyAction action).Stays ν := by
  refine .bind fun store => .bind fun _ => ?_
  split
  · exact stays_next
  · exact stays_fail _

theorem logger_stays (level : LogLevel) (children : List Step) :
    (Visit.logger level children).Stays ν :=
  .bind fun _ => .bind fun _ => stays_next

theorem textMessage_stays (message : TextMessage) : (Visit.textMessage message).Stays ν :=
  .bind fun _ => .bind fun _ => stays_next

theorem loop_stays (bounds : LoopBounds) (body : Visit Flow) :
    (Visit.loop bounds body).Stays ν := by
  intro frame history outcome after yields
  rcases yields_loop yields with ⟨_, _, _, _, _, _, repeats⟩
  exact repeats.outcome_ne_leave LoopBounds.Quits.outcome_ne_leave

theorem foreach_stays (list element : String) (body : Visit Flow) :
    (Visit.foreach list element body).Stays ν := by
  intro frame history outcome after yields
  rcases yields_foreach yields with ⟨_, _, _, rfl, _⟩ | ⟨_, _, _, _, _, repeats, _⟩
  · simp
  · exact repeats.outcome_ne_leave QuitsItems.outcome_ne_leave

theorem embed_stays (name : String) (run : Context → Program ScriptRun) :
    (embed name run).Stays ν := by
  refine .bind fun _ => .bind fun ran => .bind fun _ => ?_
  split
  · exact stays_abort _
  · exact .bind fun _ => stays_abort _
  · refine .bind fun _ => ?_
    split
    · exact stays_fail _
    · exact stays_next

/-! ### Visits that pass a break on -/

variable {frame after : Frame} {history : List (Exchange ν)} {outcome : Except Abort Flow}

theorem yields_condition {guard : Guard} {body : Visit Flow}
    (yields : (condition guard body).Yields frame history outcome after) :
    outcome = .ok .next ∨ body.Yields frame history outcome after := by
  have yields := yields_store_bind.mp yields
  split at yields
  · exact .inr yields
  · exact .inl (yields_pure.mp yields).2.1

theorem yields_breakLoop {guards : List Guard}
    (yields : (breakLoop guards).Yields frame history outcome after) (left : outcome = .ok .leave) :
    guards = [] ∨ ∃ guard ∈ guards, guard.holds frame.context.properties = true := by
  have flow : outcome = .ok (if guards.isEmpty || guards.any fun guard =>
      guard.holds frame.context.properties then .leave else .next) :=
    (yields_pure.mp yields).2.1
  rw [left, Except.ok.injEq] at flow
  split at flow
  · rename_i holds
    simpa using holds
  · exact nomatch flow

/-- A lock that is left is released behind its body. -/
theorem yields_lock {name : String} {wait : Nat} {body : Visit Flow}
    (yields : (lock name wait body).Yields frame history outcome after)
    (left : outcome = .ok .leave) :
    ∃ acquired visited released, history =
        [⟨.acquire name wait, .granted, acquired⟩] ++ visited ++ [⟨.release name, (), released⟩] ∧
      body.Yields frame visited outcome after := by
  rcases yields_ask_bind.mp yields with ⟨answer, acquired, rest, rfl, goesOn⟩
  cases answer with
  | granted =>
      rcases yields_attempt_bind.mp goesOn with ⟨_, _, visited, rest, rfl, went, releases⟩
      rcases yields_ask_bind.mp releases with ⟨_, released, rest, rfl, concludes⟩
      rcases yields_conclude.mp concludes with ⟨rfl, rfl, rfl⟩
      exact ⟨acquired, visited, released, rfl, went⟩
  | timedOut => exact absurd left (stays_fail _ _ _ _ _ goesOn)
  | cancelled =>
      have stays : (checkpoint >>= fun _ => abort .interrupted).Stays ν :=
        .bind fun _ => stays_abort _
      exact absurd left (stays _ _ _ _ goesOn)

end Visit

/-! ### Steps that leave -/

/-- A passage in which a break is reached that holds, with no loop and no embedded script in
between. -/
inductive Passage.Broken (setting : Setting) : Passage ν → Prop
  | here {passage : Passage ν} {conditions : List Block}
      (isBreak : passage.step.kind = .breakLoop conditions)
      (holds : conditions = [] ∨ ∃ condition ∈ conditions,
        condition.guard.holds passage.before.context.properties = true) : passage.Broken setting
  | inside {passage inner : Passage ν} {passages : List (Passage ν)}
      (holds : passage.Holds setting passages) (innerMem : inner ∈ passages)
      (broken : inner.Broken setting) : passage.Broken setting

namespace Passage

variable {setting : Setting} {passage : Passage ν}

/-- What is inside a step asks less than the step does. -/
theorem Holds.length_lt {passages : List (Passage ν)} (holds : passage.Holds setting passages)
    {inner : Passage ν} (innerMem : inner ∈ passages) :
    inner.history.length < passage.history.length := by
  rcases holds with ⟨children, entry, opening, closing, history, ⟨checked, moved⟩, -, -⟩
  rcases List.append_of_mem innerMem with ⟨earlier, later, rfl⟩
  rw [history]
  simp only [List.flatMap_append, List.flatMap_cons, List.length_append, List.length_cons]
  omega

/-- A step that leaves is a break that holds, or it groups others of which the last one leaves. -/
theorem Occurs.leaves (occurs : passage.Occurs setting) (left : passage.outcome = .ok .leave) :
    (∃ conditions, passage.step.kind = .breakLoop conditions ∧
      (conditions = [] ∨ ∃ condition ∈ conditions,
        condition.guard.holds passage.before.context.properties = true)) ∨
    ∃ passages, passage.Holds setting passages := by
  rcases occurs.enters with ⟨-, stopped, -⟩ | ⟨entry, rest, history, enters, yields⟩
  · exact nomatch left.symm.trans stopped
  have holdsAll {children : List Step} {opening visited closing : List (Exchange ν)}
      {kind : StepKind} (isKind : passage.step.kind = kind)
      (groups : kind.Groups children opening closing)
      (split : rest = opening ++ visited ++ closing)
      (visits : (Visit.siblings (Step.visits setting children)).Yields
        (passage.before.entering passage.step) visited passage.outcome passage.after) :
      ∃ passages, passage.Holds setting passages := by
    rcases Visit.yields_siblings visits with ⟨passages, rfl, succession⟩
    exact ⟨passages, children, entry, opening, closing, split ▸ history, enters, isKind ▸ groups,
      succession⟩
  cases kind : passage.step.kind with
  | breakLoop conditions =>
      rw [kind, StepKind.visit] at yields
      exact .inl ⟨conditions, rfl, by simpa using Visit.yields_breakLoop yields left⟩
  | condition block =>
      rcases block with ⟨guard, children⟩
      rw [kind, StepKind.visit] at yields
      rcases Visit.yields_condition yields with goesOn | visits
      · exact nomatch left.symm.trans goesOn
      · exact .inr (holdsAll kind .condition (by simp) visits)
  | execution children =>
      rw [kind, StepKind.visit] at yields
      exact .inr (holdsAll kind .execution (by simp) yields)
  | lock name timeout children =>
      rw [kind, StepKind.visit] at yields
      rcases Visit.yields_lock yields left with ⟨acquired, visited, released, split, visits⟩
      exact .inr (holdsAll kind (.lock _ acquired released) split visits)
  | logger level children =>
      rw [kind, StepKind.visit] at yields
      exact absurd left (Visit.logger_stays level children _ _ _ _ yields)
  | textMessage message =>
      rw [kind, StepKind.visit] at yields
      exact absurd left (Visit.textMessage_stays message _ _ _ _ yields)
  | action action =>
      rw [kind, StepKind.visit] at yields
      exact absurd left (Visit.action_stays setting action _ _ _ _ yields)
  | assertion assertion =>
      rw [kind, StepKind.visit] at yields
      exact absurd left (Visit.assertion_stays setting assertion _ _ _ _ yields)
  | propertyAction action =>
      rw [kind, StepKind.visit] at yields
      exact absurd left (Visit.propertyAction_stays action _ _ _ _ yields)
  | function function =>
      rw [kind, StepKind.visit] at yields
      exact absurd left (Visit.function_stays setting function _ _ _ _ yields)
  | loop bounds children =>
      rw [kind, StepKind.visit] at yields
      exact absurd left (Visit.loop_stays bounds _ _ _ _ _ yields)
  | foreach list element children =>
      rw [kind, StepKind.visit] at yields
      exact absurd left (Visit.foreach_stays list element _ _ _ _ _ yields)
  | script script =>
      rw [kind, StepKind.visit] at yields
      exact absurd left (Visit.embed_stays _ _ _ _ _ _ yields)

theorem Occurs.broken (occurs : passage.Occurs setting) (left : passage.outcome = .ok .leave) :
    passage.Broken setting := by
  induction asked : passage.history.length using Nat.strongRecOn generalizing passage with
  | _ _ ih =>
      subst asked
      rcases occurs.leaves left with ⟨conditions, isBreak, holds⟩ | ⟨passages, holds⟩
      · exact .here isBreak holds
      · have ⟨_, _, _, _, _, _, _, succession⟩ := holds
        rcases succession.getLast?_of_leave left with ⟨inner, isLast, innerLeft⟩
        have innerMem := List.mem_of_getLast? isLast
        exact .inside holds innerMem
          (ih _ (holds.length_lt innerMem) (succession.occurs _ innerMem) innerLeft rfl)

end Passage

/-! ### Scripts -/

namespace Visit

variable {result : ScriptResult} {context : Context} {closing : List (Exchange ν)} {ran : ScriptRun}

end Visit

/-! ### How far a break reaches -/

end TestEngine
