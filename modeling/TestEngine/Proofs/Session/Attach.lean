import TestEngine.Proofs.Walk.RollUp
import TestEngine.Result.Trace

/-!
# Attaching traces

When a job ends, the contents of its traces are moved into its result. A visit of the traces leaves
everything but the traces as it is, so what is rolled up stays so: this is shown along the trees of
results, where each member of a visited list is the visit of a member at the same place.
-/

namespace TestEngine

variable {σ : Type} {visit : TraceVisit σ}

/-- What a visit of one item after the other leaves is a visit of one of the items. -/
theorem mem_of_visits {α : Type} {visitOne : α → σ → α × σ} {visitAll : List α → σ → List α × σ}
    (nil : ∀ state, (visitAll [] state).1 = [])
    (cons : ∀ first rest state, ∃ next,
      (visitAll (first :: rest) state).1 = (visitOne first state).1 :: (visitAll rest next).1)
    {items : List α} {state : σ} {after : α} (afterMem : after ∈ (visitAll items state).1) :
    ∃ before ∈ items, ∃ state, after = (visitOne before state).1 := by
  induction items generalizing state with
  | nil => simp [nil] at afterMem
  | cons first rest ih =>
      rcases cons first rest state with ⟨next, visits⟩
      rw [visits] at afterMem
      rcases List.mem_cons.mp afterMem with rfl | afterMem
      · exact ⟨first, List.mem_cons_self, state, rfl⟩
      · rcases ih afterMem with ⟨before, beforeMem, state, same⟩
        exact ⟨before, List.mem_cons_of_mem first beforeMem, state, same⟩

/-! ### Scripts -/

@[simp]
theorem ScriptResult.verdict_visitTraces (result : ScriptResult) (state : σ) :
    (result.visitTraces visit state).1.verdict = result.verdict := by
  cases result
  rfl

@[simp]
theorem ScriptResult.isFailed_visitTraces (result : ScriptResult) (state : σ) :
    (result.visitTraces visit state).1.isFailed = result.isFailed := by
  rw [isFailed, verdict_visitTraces, isFailed]

theorem ScriptEntry.mem_visitAll {entries : List ScriptEntry} {state : σ} {after : ScriptEntry}
    (afterMem : after ∈ (visitAll visit entries state).1) :
    ∃ before ∈ entries, ∃ state, after = (before.visitTraces visit state).1 := by
  refine mem_of_visits ?_ ?_ afterMem
  · simp [visitAll]
  · intro first rest state
    rw [visitAll]
    exact ⟨_, rfl⟩

theorem ScriptResult.mem_visitAll {results : List ScriptResult} {state : σ} {after : ScriptResult}
    (afterMem : after ∈ (visitAll visit results state).1) :
    ∃ before ∈ results, ∃ state, after = (before.visitTraces visit state).1 := by
  refine mem_of_visits ?_ ?_ afterMem
  · simp [visitAll]
  · intro first rest state
    rw [visitAll]
    exact ⟨_, rfl⟩

theorem ScriptResult.Passed.visitTraces {result : ScriptResult} (passed : result.Passed)
    (state : σ) : (result.visitTraces visit state).1.Passed := by
  induction passed generalizing state with
  | @intro result verdict actions scripts ih =>
      have entries (after : ScriptEntry)
          (afterMem : after ∈ (result.visitTraces visit state).1.entries) :
          ∃ before ∈ result.entries, ∃ state, after = (before.visitTraces visit state).1 := by
        cases result
        exact ScriptEntry.mem_visitAll afterMem
      refine .intro (by simpa using verdict) ?_ ?_
      · intro response responseMem
        rcases entries _ responseMem with ⟨before, beforeMem, state, same⟩
        cases before with
        | action other =>
            have sameStatus : response.status = other.status := by
              rw [(ScriptEntry.action.inj same)]
            exact sameStatus.trans (actions other beforeMem)
        | script other => exact nomatch same
      · intro inner innerMem
        rcases entries _ innerMem with ⟨before, beforeMem, state, same⟩
        cases before with
        | action other => exact nomatch same
        | script other =>
            rw [ScriptEntry.script.inj same]
            exact ih other beforeMem state

/-! ### Elements -/

@[simp]
theorem ElementResult.verdict_visitTraces (result : ElementResult) (state : σ) :
    (result.visitTraces visit state).1.verdict = result.verdict := by
  cases result
  rfl

@[simp]
theorem ElementResult.isFailed_visitTraces (result : ElementResult) (state : σ) :
    (result.visitTraces visit state).1.isFailed = result.isFailed := by
  rw [isFailed, verdict_visitTraces, isFailed]

theorem ElementResult.mem_visitAll {results : List ElementResult} {state : σ}
    {after : ElementResult} (afterMem : after ∈ (visitAll visit results state).1) :
    ∃ before ∈ results, ∃ state, after = (before.visitTraces visit state).1 := by
  refine mem_of_visits ?_ ?_ afterMem
  · simp [visitAll]
  · intro first rest state
    rw [visitAll]
    exact ⟨_, rfl⟩

theorem ElementResult.RolledUp.visitTraces {result : ElementResult} (rolledUp : result.RolledUp)
    (state : σ) : (result.visitTraces visit state).1.RolledUp := by
  induction rolledUp generalizing state with
  | @intro result judged results scripts failsWithResult failsWithScript ih =>
      have children (after : ElementResult)
          (afterMem : after ∈ (result.visitTraces visit state).1.results) :
          ∃ before ∈ result.results, ∃ state, after = (before.visitTraces visit state).1 := by
        cases result
        exact ElementResult.mem_visitAll afterMem
      have ownScripts (after : ScriptResult)
          (afterMem : after ∈ (result.visitTraces visit state).1.scripts) :
          ∃ before ∈ result.scripts, ∃ state, after = (before.visitTraces visit state).1 := by
        cases result
        exact ScriptResult.mem_visitAll afterMem
      refine .intro (by simpa using judged) ?_ ?_ ?_ ?_
      · intro after afterMem
        rcases children after afterMem with ⟨before, beforeMem, state, rfl⟩
        exact ih before beforeMem state
      · intro after afterMem
        rcases ownScripts after afterMem with ⟨before, beforeMem, state, rfl⟩
        rw [ScriptResult.isFailed_visitTraces]
        exact (scripts before beforeMem).imp id fun passed => passed.visitTraces state
      · intro after afterMem
        rcases children after afterMem with ⟨before, beforeMem, state, rfl⟩
        simpa using failsWithResult before beforeMem
      · intro after afterMem
        rcases ownScripts after afterMem with ⟨before, beforeMem, state, rfl⟩
        simpa using failsWithScript before beforeMem

theorem ElementResult.any_isFailed_visitAll (results : List ElementResult) (state : σ) :
    (visitAll visit results state).1.any isFailed = results.any isFailed := by
  induction results generalizing state with
  | nil => rfl
  | cons result rest ih => simp [visitAll, ih]

end TestEngine
