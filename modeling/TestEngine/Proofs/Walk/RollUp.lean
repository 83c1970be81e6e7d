import TestEngine.Proofs.Script.Soundness

/-!
# Rolled-up verdicts

A verdict looks one level down only. What it says of everything below follows by induction from the
same property of every level: in a tree that is `RolledUp`, an element that has not failed has
nothing below it that has, be it an element, a script, a script embedded in one or an action.
-/

namespace TestEngine

/-! ### What results hold -/

/-- Whether a script result is another one, or holds it at some depth of embedding. -/
inductive ScriptResult.Holds : ScriptResult → ScriptResult → Prop
  | itself {result : ScriptResult} : result.Holds result
  | embedded {outer middle inner : ScriptResult} (entryMem : .script middle ∈ outer.entries)
      (holds : middle.Holds inner) : outer.Holds inner

/-- Whether an element result is another one, or holds it at some depth. -/
inductive ElementResult.Holds : ElementResult → ElementResult → Prop
  | itself {result : ElementResult} : result.Holds result
  | deeper {outer child inner : ElementResult} (childMem : child ∈ outer.results)
      (holds : child.Holds inner) : outer.Holds inner

/-- Whether an element, or one below it, has a script that is or holds another one. -/
def ElementResult.HoldsScript (result : ElementResult) (inner : ScriptResult) : Prop :=
  ∃ holder script, result.Holds holder ∧ script ∈ holder.scripts ∧ script.Holds inner

/-- What can have failed below an element. -/
inductive ElementResult.FailsBelow (result : ElementResult) : Prop
  | element {child inner : ElementResult} (childMem : child ∈ result.results)
      (holds : child.Holds inner) (failed : inner.isFailed)
  | script {inner : ScriptResult} (holds : result.HoldsScript inner) (failed : inner.isFailed)
  | action {inner : ScriptResult} {response : ActionResponse} (holds : result.HoldsScript inner)
      (responseMem : response ∈ inner.actions) (failed : response.status = .failed)

theorem ScriptResult.mem_actions {result : ScriptResult} {response : ActionResponse} :
    response ∈ result.actions ↔ .action response ∈ result.entries := by
  simp only [actions, List.mem_filterMap]
  constructor
  · rintro ⟨entry, entryMem, isAction⟩
    cases entry with
    | action other => exact Option.some.inj isAction ▸ entryMem
    | script inner => exact absurd isAction (by simp)
  · exact fun entryMem => ⟨_, entryMem, rfl⟩

namespace ScriptResult.Passed

theorem not_isFailed {result : ScriptResult} (passed : result.Passed) : ¬result.isFailed := by
  rcases passed with ⟨verdict, -, -⟩
  simp [isFailed, Verdict.isFailed, verdict, Verdict.isFailure]

theorem of_holds {result inner : ScriptResult} (passed : result.Passed)
    (holds : result.Holds inner) : inner.Passed := by
  induction holds with
  | itself => exact passed
  | embedded entryMem _ ih =>
      rcases passed with ⟨-, -, scripts⟩
      exact ih (scripts _ entryMem)

theorem action_passed {result : ScriptResult} (passed : result.Passed) {response : ActionResponse}
    (responseMem : response ∈ result.actions) : response.status = .passed := by
  rcases passed with ⟨-, actions, -⟩
  exact actions response (mem_actions.mp responseMem)

end ScriptResult.Passed

/-! ### Verdicts of whole trees -/

/-- A result whose visit is over, with everything below it. -/
inductive ElementResult.RolledUp : ElementResult → Prop
  | intro {result : ElementResult} (judged : result.verdict.isSome)
      (results : ∀ child ∈ result.results, child.RolledUp)
      (scripts : ∀ script ∈ result.scripts, script.isFailed ∨ script.Passed)
      (failsWithResult : ∀ child ∈ result.results, child.isFailed → result.isFailed)
      (failsWithScript : ∀ script ∈ result.scripts, script.isFailed → result.isFailed) :
      result.RolledUp

namespace ElementResult.RolledUp

variable {result inner : ElementResult}

/-- Nothing below an element has failed unless the element itself has. -/
theorem of_holds (rolledUp : result.RolledUp) (holds : result.Holds inner) :
    inner.RolledUp ∧ (¬result.isFailed → ¬inner.isFailed) := by
  induction holds with
  | itself => exact ⟨rolledUp, id⟩
  | deeper childMem _ ih =>
      rcases rolledUp with ⟨-, results, -, failsWithResult, -⟩
      rcases ih (results _ childMem) with ⟨innerRolledUp, innerStands⟩
      exact ⟨innerRolledUp, fun stands => innerStands fun childFailed =>
        stands (failsWithResult _ childMem childFailed)⟩

/-- All scripts of an element that has not failed, and of those below it, have passed. -/
theorem passed_of_holdsScript {script : ScriptResult} (rolledUp : result.RolledUp)
    (stands : ¬result.isFailed) (holds : result.HoldsScript script) : script.Passed := by
  rcases holds with ⟨holder, outer, holdsHolder, outerMem, outerHolds⟩
  rcases rolledUp.of_holds holdsHolder with ⟨holderRolledUp, holderStands⟩
  rcases holderRolledUp with ⟨-, -, scripts, -, failsWithScript⟩
  have outerStands : ¬outer.isFailed := fun outerFailed =>
    holderStands stands (failsWithScript outer outerMem outerFailed)
  exact ((scripts outer outerMem).resolve_left outerStands).of_holds outerHolds

/-- An element has failed as soon as something below it has. -/
theorem isFailed_of_failsBelow (rolledUp : result.RolledUp) (failsBelow : result.FailsBelow) :
    result.isFailed := by
  refine Decidable.byContradiction fun stands => ?_
  cases failsBelow with
  | element childMem holds failed =>
      exact (rolledUp.of_holds (.deeper childMem holds)).2 stands failed
  | script holds failed => exact (rolledUp.passed_of_holdsScript stands holds).not_isFailed failed
  | action holds responseMem failed =>
      have passed := (rolledUp.passed_of_holdsScript stands holds).action_passed responseMem
      exact absurd (passed.symm.trans failed) (by decide)

end ElementResult.RolledUp

end TestEngine
