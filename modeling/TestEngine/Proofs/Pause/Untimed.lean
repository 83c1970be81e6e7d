import TestEngine.Proofs.Result.Growth
import TestEngine.Result.Trace

/-!
# Results without times

What a result says apart from times: which times it has still shows, but not which ones they are.
Everything that a run does with its results can be done with the results without times as well, and
comes out the same but for times. No decision of a run looks at the time in a result.
-/

namespace TestEngine

open Calendar

def LogEntry.untimed (entry : LogEntry) : LogEntry := { entry with timestamp := default }

mutual

def ScriptResult.untimed : ScriptResult → ScriptResult
  | ⟨scriptId, name, verdict, start, stop, duration, message, log, entries⟩ =>
    ⟨scriptId, name, verdict, start.map fun _ => default, stop.map fun _ => default,
      duration.map fun _ => default, message, log.map LogEntry.untimed,
      ScriptEntry.untimedAll entries⟩

def ScriptEntry.untimed : ScriptEntry → ScriptEntry
  | .action response => .action response
  | .script result => .script result.untimed

def ScriptEntry.untimedAll : List ScriptEntry → List ScriptEntry
  | [] => []
  | entry :: rest => entry.untimed :: ScriptEntry.untimedAll rest

end

mutual

def ElementResult.untimed : ElementResult → ElementResult
  | ⟨elementId, name, level, schemaId, verdict, start, stop, duration, message, results, scripts,
      manual⟩ =>
    ⟨elementId, name, level, schemaId, verdict, start.map fun _ => default,
      stop.map fun _ => default, duration.map fun _ => default, message,
      ElementResult.untimedAll results, scripts.map ScriptResult.untimed, manual⟩

def ElementResult.untimedAll : List ElementResult → List ElementResult
  | [] => []
  | result :: rest => result.untimed :: ElementResult.untimedAll rest

end

def ConfigurationResult.untimed (result : ConfigurationResult) : ConfigurationResult :=
  { result with
    start := result.start.map fun _ => default
    stop := result.stop.map fun _ => default
    duration := result.duration.map fun _ => default
    results := result.results.map ElementResult.untimed }

theorem ScriptEntry.untimedAll_eq_map (entries : List ScriptEntry) :
    ScriptEntry.untimedAll entries = entries.map ScriptEntry.untimed := by
  induction entries with
  | nil => rfl
  | cons entry rest ih => rw [untimedAll, ih, List.map_cons]

theorem ElementResult.untimedAll_eq_map (results : List ElementResult) :
    ElementResult.untimedAll results = results.map ElementResult.untimed := by
  induction results with
  | nil => rfl
  | cons result rest ih => rw [untimedAll, ih, List.map_cons]

/-! ### Scripts -/

namespace ScriptResult

variable (result : ScriptResult)

@[simp]
theorem verdict_untimed : result.untimed.verdict = result.verdict := by
  cases result
  rfl

@[simp]
theorem message_untimed : result.untimed.message = result.message := by
  cases result
  rfl

@[simp]
theorem isFailed_untimed : result.untimed.isFailed = result.isFailed := by
  rw [isFailed, verdict_untimed, isFailed]

/-- When a script was completed shows in nothing but times. -/
theorem untimed_complete (verdict : Option Verdict) (message : Option String) (stop : Instant) :
    ({ result with
        verdict, message
        stop := some stop
        duration := result.start.map stop.millisSince } : ScriptResult).untimed =
      { result.untimed with
        verdict, message
        stop := some default
        duration := result.untimed.start.map fun _ => default } := by
  cases result
  simp [untimed, Function.comp_def]

end ScriptResult

/-! ### Elements -/

namespace ElementResult

variable (result : ElementResult)

@[simp]
theorem verdict_untimed : result.untimed.verdict = result.verdict := by
  cases result
  rfl

@[simp]
theorem name_untimed : result.untimed.name = result.name := by
  cases result
  rfl

@[simp]
theorem elementId_untimed : result.untimed.elementId = result.elementId := by
  cases result
  rfl

@[simp]
theorem results_untimed : result.untimed.results = result.results.map untimed := by
  cases result
  exact untimedAll_eq_map _

@[simp]
theorem scripts_untimed : result.untimed.scripts = result.scripts.map ScriptResult.untimed := by
  cases result
  rfl

@[simp]
theorem isFailed_untimed : result.untimed.isFailed = result.isFailed := by
  rw [isFailed, verdict_untimed, isFailed]

@[simp]
theorem isSkipped_untimed : result.untimed.isSkipped = result.isSkipped := by
  rw [isSkipped, verdict_untimed, isSkipped]

theorem untimed_with_results (results : List ElementResult) :
    ({ result with results } : ElementResult).untimed =
      { result.untimed with results := results.map untimed } := by
  cases result
  simp [untimed, untimedAll_eq_map]

theorem untimed_fail (message : String) :
    (result.fail message).untimed = result.untimed.fail message := by
  cases result
  rfl

theorem untimed_skip (message : String) :
    (result.skip message).untimed = result.untimed.skip message := by
  cases result
  rfl

theorem untimed_addScript (script : ScriptResult) :
    (result.addScript script).untimed = result.untimed.addScript script.untimed := by
  cases result
  simp only [addScript, ScriptResult.isFailed_untimed, ScriptResult.message_untimed]
  split <;> simp [untimed]

theorem untimed_rollUp : result.rollUp.untimed = result.untimed.rollUp := by
  have sameFailures : (result.untimed.results.any isFailed ||
      result.untimed.scripts.any ScriptResult.isFailed) =
        (result.results.any isFailed || result.scripts.any ScriptResult.isFailed) := by
    simp [List.any_map, Function.comp_def]
  rw [rollUp, rollUp, isSkipped_untimed, sameFailures]
  cases result
  split
  · rfl
  · split <;> rfl

/-- When an element was finished shows in nothing but times. -/
theorem untimed_finish (now : Instant) :
    (result.finish now).untimed =
      rollUp { result.untimed with
        stop := some default
        duration := result.untimed.start.map fun _ => default } := by
  rw [finish, untimed_rollUp]
  cases result
  simp [untimed, untimedAll_eq_map, Function.comp_def]

end ElementResult

/-- No walk notices the times in its results. -/
theorem ElementResult.unnoticed_untimed : Unnoticed untimed :=
  ⟨elementId_untimed, name_untimed, verdict_untimed⟩

/-! ### Traces -/

section Traces

variable {σ : Type} (visit : TraceVisit σ)

mutual

theorem ScriptResult.visitTraces_untimed : (result : ScriptResult) → (state : σ) →
    result.untimed.visitTraces visit state =
      (result.visitTraces visit state).map ScriptResult.untimed id
  | ⟨_, _, _, _, _, _, _, _, entries⟩, state => by
      rw [ScriptResult.untimed, ScriptResult.visitTraces, ScriptEntry.visitAll_untimed entries]
      rfl

theorem ScriptEntry.visitTraces_untimed : (entry : ScriptEntry) → (state : σ) →
    entry.untimed.visitTraces visit state =
      (entry.visitTraces visit state).map ScriptEntry.untimed id
  | .action response, state => by
      rw [ScriptEntry.untimed, ScriptEntry.visitTraces]
      rfl
  | .script result, state => by
      rw [ScriptEntry.untimed, ScriptEntry.visitTraces, ScriptResult.visitTraces_untimed result]
      rfl

theorem ScriptEntry.visitAll_untimed : (entries : List ScriptEntry) → (state : σ) →
    ScriptEntry.visitAll visit (ScriptEntry.untimedAll entries) state =
      (ScriptEntry.visitAll visit entries state).map ScriptEntry.untimedAll id
  | [], _ => rfl
  | entry :: rest, state => by
      rw [ScriptEntry.untimedAll, ScriptEntry.visitAll, ScriptEntry.visitTraces_untimed entry,
        ScriptEntry.visitAll]
      simp only [Prod.map, id_eq, ScriptEntry.visitAll_untimed rest]
      rfl

end

theorem ScriptResult.visitAll_untimed (scripts : List ScriptResult) (state : σ) :
    ScriptResult.visitAll visit (scripts.map ScriptResult.untimed) state =
      (ScriptResult.visitAll visit scripts state).map (List.map ScriptResult.untimed) id := by
  induction scripts generalizing state with
  | nil => rfl
  | cons script rest ih =>
      simp only [List.map_cons, visitAll, visitTraces_untimed, Prod.map, id_eq, ih]

mutual

theorem ElementResult.visitTraces_untimed : (result : ElementResult) → (state : σ) →
    result.untimed.visitTraces visit state =
      (result.visitTraces visit state).map ElementResult.untimed id
  | ⟨_, _, _, _, _, _, _, _, _, results, scripts, _⟩, state => by
      rw [ElementResult.untimed, ElementResult.visitTraces, ScriptResult.visitAll_untimed]
      simp only [Prod.map, id_eq, ElementResult.visitAll_untimed results]
      rfl

theorem ElementResult.visitAll_untimed : (results : List ElementResult) → (state : σ) →
    ElementResult.visitAll visit (ElementResult.untimedAll results) state =
      (ElementResult.visitAll visit results state).map ElementResult.untimedAll id
  | [], _ => rfl
  | result :: rest, state => by
      rw [ElementResult.untimedAll, ElementResult.visitAll,
        ElementResult.visitTraces_untimed result, ElementResult.visitAll]
      simp only [Prod.map, id_eq, ElementResult.visitAll_untimed rest]
      rfl

end

end Traces

/-! ### Configurations -/

namespace ConfigurationResult

variable (result : ConfigurationResult)

theorem untimed_rollUp : result.rollUp.untimed = result.untimed.rollUp := by
  have sameFailures : result.untimed.results.any ElementResult.isFailed =
      result.results.any ElementResult.isFailed := by
    simp [untimed, List.any_map, Function.comp_def]
  rw [rollUp, rollUp, sameFailures]
  split <;> rfl

theorem untimed_finish (now : Instant) :
    (result.finish now).untimed =
      rollUp { result.untimed with
        stop := some default
        duration := result.untimed.start.map fun _ => default } := by
  rw [finish, untimed_rollUp]
  simp [untimed, Function.comp_def]

theorem attachTraces_untimed (cache : TraceCache) :
    result.untimed.attachTraces cache = (result.attachTraces cache).map untimed id := by
  have sameVisit := ElementResult.visitAll_untimed Trace.attach result.results cache
  simp only [ElementResult.untimedAll_eq_map] at sameVisit
  simp only [attachTraces, visitTraces, untimed, sameVisit, Prod.map]
  simp [ElementResult.untimedAll_eq_map]

end ConfigurationResult

end TestEngine
