import TestEngine.Proofs.Result.Growth

/-!
# Concluded results

A result is concluded if it says how the visit went, when it ended and how long it took, and so does
everything below it. A capability that takes a run down leaves results that are not: the visits that
were open then lie on the rightmost path, and what is left of the path is concluded. Scripts are
entered only when they are concluded. Filling in the contents of traces changes nothing of this.
-/

namespace TestEngine

/-- A script result that is complete, with those embedded in it. -/
inductive ScriptResult.Concluded : ScriptResult → Prop
  | intro {result : ScriptResult} (verdict : result.verdict.isSome) (stop : result.stop.isSome)
      (duration : result.duration.isSome)
      (scripts : ∀ inner, .script inner ∈ result.entries → inner.Concluded) : result.Concluded

def ScriptEntry.Concluded : ScriptEntry → Prop
  | .action _ => True
  | .script result => result.Concluded

theorem ScriptResult.concluded_of_entries {result : ScriptResult}
    (verdict : result.verdict.isSome) (stop : result.stop.isSome)
    (duration : result.duration.isSome) (concluded : ∀ entry ∈ result.entries, entry.Concluded) :
    result.Concluded :=
  .intro verdict stop duration fun _ innerMem => concluded _ innerMem

theorem ScriptResult.Concluded.of_holds {result inner : ScriptResult}
    (concluded : result.Concluded) (holds : result.Holds inner) : inner.Concluded := by
  induction holds with
  | itself => exact concluded
  | embedded entryMem _ ih =>
      rcases concluded with ⟨-, -, -, scripts⟩
      exact ih (scripts _ entryMem)

namespace ElementResult

/-- A result that is complete, with everything below it. -/
inductive Concluded : ElementResult → Prop
  | intro {result : ElementResult} (verdict : result.verdict.isSome) (stop : result.stop.isSome)
      (duration : result.duration.isSome) (scripts : ∀ script ∈ result.scripts, script.Concluded)
      (results : ∀ child ∈ result.results, child.Concluded) : result.Concluded

/-- A result whose visit has begun and not ended. It may have failed already, and its scripts so far
are complete. -/
structure Unended (result : ElementResult) : Prop where
  start : result.start.isSome
  stop : result.stop = none
  duration : result.duration = none
  verdict : result.verdict = none ∨ result.verdict = some .failed
  scripts : ∀ script ∈ result.scripts, script.Concluded

/-- What a crash makes of siblings: all but the last one are complete. The visit of the last one has
not ended; it was in one of its scripts, or else its children are broken off too. -/
inductive BrokenOff : List ElementResult → Prop
  | inScript {earlier : List ElementResult} {last : ElementResult}
      (concluded : ∀ sibling ∈ earlier, sibling.Concluded) (unended : last.Unended)
      (noResults : last.results = []) : BrokenOff (earlier ++ [last])
  | atChild {earlier : List ElementResult} {last : ElementResult}
      (concluded : ∀ sibling ∈ earlier, sibling.Concluded) (unended : last.Unended)
      (results : BrokenOff last.results) : BrokenOff (earlier ++ [last])

theorem Concluded.of_holds {result inner : ElementResult} (concluded : result.Concluded)
    (holds : result.Holds inner) : inner.Concluded := by
  induction holds with
  | itself => exact concluded
  | deeper childMem _ ih =>
      rcases concluded with ⟨-, -, -, -, results⟩
      exact ih (results _ childMem)

theorem Concluded.script_of_holds {result : ElementResult} (concluded : result.Concluded)
    {script : ScriptResult} (holds : result.HoldsScript script) : script.Concluded := by
  rcases holds with ⟨holder, outer, holdsHolder, outerMem, outerHolds⟩
  rcases concluded.of_holds holdsHolder with ⟨-, -, -, scripts, -⟩
  exact (scripts outer outerMem).of_holds outerHolds

namespace BrokenOff

variable {results : List ElementResult}

theorem of_inScript {result : ElementResult} (unended : result.Unended)
    (noResults : result.results = []) : BrokenOff [result] := by
  change BrokenOff ([] ++ [result])
  exact .inScript (List.forall_mem_nil _) unended noResults

theorem of_atChild {result : ElementResult} (unended : result.Unended)
    (results : BrokenOff result.results) : BrokenOff [result] := by
  change BrokenOff ([] ++ [result])
  exact .atChild (List.forall_mem_nil _) unended results

theorem append {earlier : List ElementResult} (concluded : ∀ result ∈ earlier, result.Concluded)
    (brokenOff : BrokenOff results) : BrokenOff (earlier ++ results) := by
  cases brokenOff with
  | inScript between unended noResults =>
      rw [← List.append_assoc]
      exact .inScript (List.forall_mem_append.mpr ⟨concluded, between⟩) unended noResults
  | atChild between unended results =>
      rw [← List.append_assoc]
      exact .atChild (List.forall_mem_append.mpr ⟨concluded, between⟩) unended results

/-- A crash leaves the scripts of all elements complete. -/
theorem script_of_holds (brokenOff : BrokenOff results) {top : ElementResult}
    (topMem : top ∈ results) {script : ScriptResult} (holds : top.HoldsScript script) :
    script.Concluded := by
  induction brokenOff generalizing top with
  | inScript concluded unended noResults =>
      rcases List.mem_append.mp topMem with earlierMem | isLast
      · exact (concluded top earlierMem).script_of_holds holds
      · obtain rfl := List.mem_singleton.mp isLast
        rcases holds with ⟨holder, outer, holdsHolder, outerMem, outerHolds⟩
        cases holdsHolder with
        | itself => exact (unended.scripts outer outerMem).of_holds outerHolds
        | deeper childMem => simp [noResults] at childMem
  | atChild concluded unended _ ih =>
      rcases List.mem_append.mp topMem with earlierMem | isLast
      · exact (concluded top earlierMem).script_of_holds holds
      · obtain rfl := List.mem_singleton.mp isLast
        rcases holds with ⟨holder, outer, holdsHolder, outerMem, outerHolds⟩
        cases holdsHolder with
        | itself => exact (unended.scripts outer outerMem).of_holds outerHolds
        | deeper childMem holdsBelow =>
            exact ih childMem ⟨_, outer, holdsBelow, outerMem, outerHolds⟩

end BrokenOff

end ElementResult

/-! ### Traces -/

section Traces

variable {σ : Type} {visit : TraceVisit σ}

@[simp]
theorem ScriptResult.stop_visitTraces (result : ScriptResult) (state : σ) :
    (result.visitTraces visit state).1.stop = result.stop := by
  cases result
  rfl

@[simp]
theorem ScriptResult.duration_visitTraces (result : ScriptResult) (state : σ) :
    (result.visitTraces visit state).1.duration = result.duration := by
  cases result
  rfl

theorem ScriptResult.Concluded.visitTraces {result : ScriptResult} (concluded : result.Concluded)
    (state : σ) : (result.visitTraces visit state).1.Concluded := by
  induction concluded generalizing state with
  | @intro result verdict stop duration scripts ih =>
      refine .intro (by simpa using verdict) (by simpa using stop) (by simpa using duration) ?_
      intro inner innerMem
      have visited : ∃ before ∈ result.entries, ∃ state,
          ScriptEntry.script inner = (before.visitTraces visit state).1 := by
        cases result
        exact ScriptEntry.mem_visitAll innerMem
      rcases visited with ⟨before, beforeMem, state, same⟩
      cases before with
      | action response => exact nomatch same
      | script other =>
          rw [ScriptEntry.script.inj same]
          exact ih other beforeMem state

theorem ScriptResult.concluded_visitAll {scripts : List ScriptResult}
    (concluded : ∀ script ∈ scripts, script.Concluded) (state : σ) :
    ∀ script ∈ (visitAll visit scripts state).1, script.Concluded := by
  intro script scriptMem
  rcases mem_visitAll scriptMem with ⟨before, beforeMem, state, rfl⟩
  exact (concluded before beforeMem).visitTraces state

namespace ElementResult

@[simp]
theorem start_visitTraces (result : ElementResult) (state : σ) :
    (result.visitTraces visit state).1.start = result.start := by
  cases result
  rfl

@[simp]
theorem stop_visitTraces (result : ElementResult) (state : σ) :
    (result.visitTraces visit state).1.stop = result.stop := by
  cases result
  rfl

@[simp]
theorem duration_visitTraces (result : ElementResult) (state : σ) :
    (result.visitTraces visit state).1.duration = result.duration := by
  cases result
  rfl

theorem Concluded.visitTraces {result : ElementResult} (concluded : result.Concluded) (state : σ) :
    (result.visitTraces visit state).1.Concluded := by
  induction concluded generalizing state with
  | @intro result verdict stop duration scripts results ih =>
      refine .intro (by simpa using verdict) (by simpa using stop) (by simpa using duration) ?_ ?_
      · rw [scripts_visitTraces]
        exact ScriptResult.concluded_visitAll scripts state
      · rcases result.exists_results_visitTraces state with ⟨next, visited⟩
        rw [visited]
        intro child childMem
        rcases mem_visitAll childMem with ⟨before, beforeMem, state, rfl⟩
        exact ih before beforeMem state

theorem concluded_visitAll {results : List ElementResult}
    (concluded : ∀ result ∈ results, result.Concluded) (state : σ) :
    ∀ result ∈ (visitAll visit results state).1, result.Concluded := by
  intro result resultMem
  rcases mem_visitAll resultMem with ⟨before, beforeMem, state, rfl⟩
  exact (concluded before beforeMem).visitTraces state

theorem Unended.visitTraces {result : ElementResult} (unended : result.Unended) (state : σ) :
    (result.visitTraces visit state).1.Unended where
  start := by simpa using unended.start
  stop := by simpa using unended.stop
  duration := by simpa using unended.duration
  verdict := by simpa using unended.verdict
  scripts := by
    rw [scripts_visitTraces]
    exact ScriptResult.concluded_visitAll unended.scripts state

theorem exists_visitAll_concat (earlier : List ElementResult) (last : ElementResult) (state : σ) :
    ∃ next, (visitAll visit (earlier ++ [last]) state).1 =
      (visitAll visit earlier state).1 ++ [(last.visitTraces visit next).1] := by
  induction earlier generalizing state with
  | nil => exact ⟨state, rfl⟩
  | cons first rest ih =>
      rcases ih (first.visitTraces visit state).2 with ⟨next, visited⟩
      exact ⟨next, congrArg _ visited⟩

theorem BrokenOff.visitAll {results : List ElementResult} (brokenOff : BrokenOff results)
    (state : σ) : BrokenOff (visitAll visit results state).1 := by
  induction brokenOff generalizing state with
  | @inScript earlier last concluded unended noResults =>
      rcases exists_visitAll_concat earlier last state with ⟨next, visited⟩
      rcases last.exists_results_visitTraces next with ⟨below, results⟩
      rw [visited]
      refine .inScript (concluded_visitAll concluded state) (unended.visitTraces next) ?_
      rw [results, noResults]
      rfl
  | @atChild earlier last concluded unended _ ih =>
      rcases exists_visitAll_concat earlier last state with ⟨next, visited⟩
      rcases last.exists_results_visitTraces next with ⟨below, results⟩
      rw [visited]
      refine .atChild (concluded_visitAll concluded state) (unended.visitTraces next) ?_
      rw [results]
      exact ih below

end ElementResult

end Traces

end TestEngine
