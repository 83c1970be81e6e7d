import TestEngine.Proofs.Result.Growth
import TestEngine.Proofs.Session.Attach

/-!
# What runs record of themselves

Beside what a run comes to, its result holds two things that are only there to be read: the traces
that backends have returned, if the run keeps traces, and the user it acts for, in each line of a
log. A result is *mute* without them, and everything that a run does with its results can be done
with mute results as well, and comes out mute. A result is *recorded* as it should be if every
response in it is one that a backend has returned, with its traces if traces are kept and without
traces if not, and every line names the user.
-/

namespace TestEngine

open Calendar

/-- What a run records of itself. -/
structure Observation where
  /-- Whether the traces of backends are kept. -/
  tracing : Bool
  user : Option String

/-- What is to be recorded, with what backends have returned to their calls. -/
structure Recording extends Observation where
  returned : ActionCall → ActionResponse → Prop

def Context.observed (observation : Observation) (context : Context) : Context :=
  { context with tracing := observation.tracing, user := observation.user }

/-! ### Mute results -/

def LogEntry.mute (entry : LogEntry) : LogEntry := { entry with user := none }

def ActionResponse.mute (response : ActionResponse) : ActionResponse :=
  { response with traces := [] }

mutual

def ScriptResult.mute : ScriptResult → ScriptResult
  | ⟨scriptId, name, verdict, start, stop, duration, message, log, entries⟩ =>
    ⟨scriptId, name, verdict, start, stop, duration, message, log.map LogEntry.mute,
      ScriptEntry.muteAll entries⟩

def ScriptEntry.mute : ScriptEntry → ScriptEntry
  | .action response => .action response.mute
  | .script result => .script result.mute

def ScriptEntry.muteAll : List ScriptEntry → List ScriptEntry
  | [] => []
  | entry :: rest => entry.mute :: ScriptEntry.muteAll rest

end

mutual

def ElementResult.mute : ElementResult → ElementResult
  | ⟨elementId, name, level, schemaId, verdict, start, stop, duration, message, results, scripts,
      manual⟩ =>
    ⟨elementId, name, level, schemaId, verdict, start, stop, duration, message,
      ElementResult.muteAll results, scripts.map ScriptResult.mute, manual⟩

def ElementResult.muteAll : List ElementResult → List ElementResult
  | [] => []
  | result :: rest => result.mute :: ElementResult.muteAll rest

end

def ConfigurationResult.mute (result : ConfigurationResult) : ConfigurationResult :=
  { result with results := result.results.map ElementResult.mute }

theorem ScriptEntry.muteAll_eq_map (entries : List ScriptEntry) :
    ScriptEntry.muteAll entries = entries.map ScriptEntry.mute := by
  induction entries with
  | nil => rfl
  | cons entry rest ih => rw [muteAll, ih, List.map_cons]

theorem ElementResult.muteAll_eq_map (results : List ElementResult) :
    ElementResult.muteAll results = results.map ElementResult.mute := by
  induction results with
  | nil => rfl
  | cons result rest ih => rw [muteAll, ih, List.map_cons]

mutual

theorem ScriptResult.mute_mute : (result : ScriptResult) → result.mute.mute = result.mute
  | ⟨_, _, _, _, _, _, _, log, entries⟩ => by
      have sameLog : (log.map LogEntry.mute).map LogEntry.mute = log.map LogEntry.mute :=
        List.map_map
      rw [ScriptResult.mute, ScriptResult.mute, sameLog, ScriptEntry.muteAll_muteAll entries]

theorem ScriptEntry.mute_mute : (entry : ScriptEntry) → entry.mute.mute = entry.mute
  | .action _ => rfl
  | .script result => by rw [ScriptEntry.mute, ScriptEntry.mute, ScriptResult.mute_mute result]

theorem ScriptEntry.muteAll_muteAll : (entries : List ScriptEntry) →
    ScriptEntry.muteAll (ScriptEntry.muteAll entries) = ScriptEntry.muteAll entries
  | [] => rfl
  | entry :: rest => by
      simp only [ScriptEntry.muteAll, ScriptEntry.mute_mute entry,
        ScriptEntry.muteAll_muteAll rest]

end

mutual

theorem ElementResult.mute_mute : (result : ElementResult) → result.mute.mute = result.mute
  | ⟨_, _, _, _, _, _, _, _, _, results, scripts, _⟩ => by
      have sameScripts : (scripts.map ScriptResult.mute).map ScriptResult.mute =
          scripts.map ScriptResult.mute := by
        simp [Function.comp_def, ScriptResult.mute_mute]
      rw [ElementResult.mute, ElementResult.mute, sameScripts,
        ElementResult.muteAll_muteAll results]

theorem ElementResult.muteAll_muteAll : (results : List ElementResult) →
    ElementResult.muteAll (ElementResult.muteAll results) = ElementResult.muteAll results
  | [] => rfl
  | result :: rest => by
      simp only [ElementResult.muteAll, ElementResult.mute_mute result,
        ElementResult.muteAll_muteAll rest]

end

namespace ScriptResult

variable (result : ScriptResult)

@[simp]
theorem verdict_mute : result.mute.verdict = result.verdict := by
  cases result
  rfl

@[simp]
theorem message_mute : result.mute.message = result.message := by
  cases result
  rfl

@[simp]
theorem isFailed_mute : result.mute.isFailed = result.isFailed := by
  rw [isFailed, verdict_mute, isFailed]

/-- How a script was completed does not show in what it has recorded. -/
theorem mute_complete (verdict : Option Verdict) (message : Option String) (stop : Instant) :
    ({ result with
        verdict, message
        stop := some stop
        duration := result.start.map stop.millisSince } : ScriptResult).mute =
      { result.mute with
        verdict, message
        stop := some stop
        duration := result.mute.start.map stop.millisSince } := by
  cases result
  rfl

end ScriptResult

namespace ElementResult

variable (result : ElementResult)

@[simp]
theorem verdict_mute : result.mute.verdict = result.verdict := by
  cases result
  rfl

@[simp]
theorem name_mute : result.mute.name = result.name := by
  cases result
  rfl

@[simp]
theorem elementId_mute : result.mute.elementId = result.elementId := by
  cases result
  rfl

@[simp]
theorem results_mute : result.mute.results = result.results.map mute := by
  cases result
  exact muteAll_eq_map _

@[simp]
theorem scripts_mute : result.mute.scripts = result.scripts.map ScriptResult.mute := by
  cases result
  rfl

@[simp]
theorem isFailed_mute : result.mute.isFailed = result.isFailed := by
  rw [isFailed, verdict_mute, isFailed]

@[simp]
theorem isSkipped_mute : result.mute.isSkipped = result.isSkipped := by
  rw [isSkipped, verdict_mute, isSkipped]

theorem mute_with_results (results : List ElementResult) :
    ({ result with results } : ElementResult).mute =
      { result.mute with results := results.map mute } := by
  cases result
  simp [mute, muteAll_eq_map]

theorem mute_fail (message : String) : (result.fail message).mute = result.mute.fail message := by
  cases result
  rfl

theorem mute_skip (message : String) : (result.skip message).mute = result.mute.skip message := by
  cases result
  rfl

theorem mute_addScript (script : ScriptResult) :
    (result.addScript script).mute = result.mute.addScript script.mute := by
  cases result
  simp only [addScript, ScriptResult.isFailed_mute, ScriptResult.message_mute]
  split <;> simp [mute]

theorem mute_rollUp : result.rollUp.mute = result.mute.rollUp := by
  have sameFailures : (result.mute.results.any isFailed ||
      result.mute.scripts.any ScriptResult.isFailed) =
        (result.results.any isFailed || result.scripts.any ScriptResult.isFailed) := by
    simp [List.any_map, Function.comp_def]
  rw [rollUp, rollUp, isSkipped_mute, sameFailures]
  cases result
  split
  · rfl
  · split <;> rfl

theorem mute_finish (now : Instant) : (result.finish now).mute = result.mute.finish now := by
  rw [finish, mute_rollUp, finish]
  cases result
  rfl

theorem mute_takeManual (input : Option Interaction) :
    result.mute.takeManual input = (result.takeManual input).map mute id := by
  rw [takeManual, takeManual]
  cases input.bind Interaction.manualResult with
  | none => rw [← mute_fail]; rfl
  | some manual =>
      rcases manual with ⟨status, verdict, comment, tester⟩
      cases result
      cases status <;> rfl

end ElementResult

/-- No walk notices what its results have recorded. -/
theorem ElementResult.unnoticed_mute : Unnoticed mute := ⟨elementId_mute, name_mute, verdict_mute⟩

/-! ### Traces of mute results -/

section Traces

variable {σ : Type} (visit : TraceVisit σ)

mutual

/-- A mute result has no trace to be visited. -/
theorem ScriptResult.visitTraces_mute : (result : ScriptResult) → (state : σ) →
    result.mute.visitTraces visit state = (result.mute, state)
  | ⟨_, _, _, _, _, _, _, _, entries⟩, state => by
      rw [ScriptResult.mute, ScriptResult.visitTraces, ScriptEntry.visitAll_mute entries]

theorem ScriptEntry.visitTraces_mute : (entry : ScriptEntry) → (state : σ) →
    entry.mute.visitTraces visit state = (entry.mute, state)
  | .action response, state => by
      rw [ScriptEntry.mute, ScriptEntry.visitTraces]
      rfl
  | .script result, state => by
      rw [ScriptEntry.mute, ScriptEntry.visitTraces, ScriptResult.visitTraces_mute result]

theorem ScriptEntry.visitAll_mute : (entries : List ScriptEntry) → (state : σ) →
    ScriptEntry.visitAll visit (ScriptEntry.muteAll entries) state =
      (ScriptEntry.muteAll entries, state)
  | [], _ => rfl
  | entry :: rest, state => by
      rw [ScriptEntry.muteAll, ScriptEntry.visitAll, ScriptEntry.visitTraces_mute entry]
      simp only [ScriptEntry.visitAll_mute rest]

end

theorem ScriptResult.visitAll_mute (scripts : List ScriptResult) (state : σ) :
    ScriptResult.visitAll visit (scripts.map ScriptResult.mute) state =
      (scripts.map ScriptResult.mute, state) := by
  induction scripts generalizing state with
  | nil => rfl
  | cons script rest ih => simp only [List.map_cons, visitAll, visitTraces_mute, ih]

mutual

theorem ElementResult.visitTraces_mute : (result : ElementResult) → (state : σ) →
    result.mute.visitTraces visit state = (result.mute, state)
  | ⟨_, _, _, _, _, _, _, _, _, results, scripts, _⟩, state => by
      rw [ElementResult.mute, ElementResult.visitTraces, ScriptResult.visitAll_mute]
      simp only [ElementResult.visitAll_mute results]

theorem ElementResult.visitAll_mute : (results : List ElementResult) → (state : σ) →
    ElementResult.visitAll visit (ElementResult.muteAll results) state =
      (ElementResult.muteAll results, state)
  | [], _ => rfl
  | result :: rest, state => by
      rw [ElementResult.muteAll, ElementResult.visitAll, ElementResult.visitTraces_mute result]
      simp only [ElementResult.visitAll_mute rest]

end

mutual

/-- What a visit of its traces makes of a result does not show in the mute result. -/
theorem ScriptResult.mute_visitTraces : (result : ScriptResult) → (state : σ) →
    (result.visitTraces visit state).1.mute = result.mute
  | ⟨_, _, _, _, _, _, _, _, entries⟩, state => by
      simp only [ScriptResult.visitTraces, ScriptResult.mute, ScriptEntry.mute_visitAll entries]

theorem ScriptEntry.mute_visitTraces : (entry : ScriptEntry) → (state : σ) →
    (entry.visitTraces visit state).1.mute = entry.mute
  | .action response, state => rfl
  | .script result, state => by
      simp only [ScriptEntry.visitTraces, ScriptEntry.mute, ScriptResult.mute_visitTraces result]

theorem ScriptEntry.mute_visitAll : (entries : List ScriptEntry) → (state : σ) →
    ScriptEntry.muteAll (ScriptEntry.visitAll visit entries state).1 = ScriptEntry.muteAll entries
  | [], _ => rfl
  | entry :: rest, state => by
      simp only [ScriptEntry.visitAll, ScriptEntry.muteAll, ScriptEntry.mute_visitTraces entry,
        ScriptEntry.mute_visitAll rest]

end

theorem ScriptResult.mute_visitAll (scripts : List ScriptResult) (state : σ) :
    (ScriptResult.visitAll visit scripts state).1.map ScriptResult.mute =
      scripts.map ScriptResult.mute := by
  induction scripts generalizing state with
  | nil => rfl
  | cons script rest ih => simp only [visitAll, List.map_cons, mute_visitTraces, ih]

mutual

theorem ElementResult.mute_visitTraces : (result : ElementResult) → (state : σ) →
    (result.visitTraces visit state).1.mute = result.mute
  | ⟨_, _, _, _, _, _, _, _, _, results, scripts, _⟩, state => by
      simp only [ElementResult.visitTraces, ElementResult.mute, ScriptResult.mute_visitAll,
        ElementResult.mute_visitAll results]

theorem ElementResult.mute_visitAll : (results : List ElementResult) → (state : σ) →
    ElementResult.muteAll (ElementResult.visitAll visit results state).1 =
      ElementResult.muteAll results
  | [], _ => rfl
  | result :: rest, state => by
      simp only [ElementResult.visitAll, ElementResult.muteAll,
        ElementResult.mute_visitTraces result, ElementResult.mute_visitAll rest]

end

end Traces

namespace ConfigurationResult

variable (result : ConfigurationResult)

theorem mute_rollUp : result.rollUp.mute = result.mute.rollUp := by
  have sameFailures : result.mute.results.any ElementResult.isFailed =
      result.results.any ElementResult.isFailed := by
    simp [mute, List.any_map, Function.comp_def]
  rw [rollUp, rollUp, sameFailures]
  split <;> rfl

theorem mute_finish (now : Instant) : (result.finish now).mute = result.mute.finish now := by
  rw [finish, mute_rollUp]
  rfl

theorem attachTraces_mute (cache : TraceCache) :
    result.mute.attachTraces cache = (result.mute, cache) := by
  simp only [attachTraces, visitTraces, mute, ← ElementResult.muteAll_eq_map,
    ElementResult.visitAll_mute]

theorem mute_attachTraces (cache : TraceCache) :
    (result.attachTraces cache).1.mute = result.mute := by
  simp only [attachTraces, visitTraces, mute, ← ElementResult.muteAll_eq_map,
    ElementResult.mute_visitAll]

end ConfigurationResult

/-! ### Recorded results -/

theorem Trace.Fills.trans {first middle last : Trace} (before : first.Fills middle)
    (after : middle.Fills last) : first.Fills last := by
  rcases before with rfl | ⟨deferred, content, rfl⟩
  · exact after
  · rcases after with rfl | ⟨stillDeferred, -⟩
    · exact .inr ⟨deferred, content, rfl⟩
    · cases stillDeferred

theorem fills_trans {first middle last : List Trace}
    (before : List.Forall₂ Trace.Fills first middle)
    (after : List.Forall₂ Trace.Fills middle last) : List.Forall₂ Trace.Fills first last := by
  induction before generalizing last with
  | nil => exact after
  | cons filled _ ih =>
      rcases after with _ | ⟨filledOn, rest⟩
      exact .cons (filled.trans filledOn) (ih rest)

section Recorded

variable {recording : Recording}

/-- A response as it is to be recorded: one that a backend has returned to a call, with the delay of
the action. If traces are kept it has those of the backend, whose contents may have been filled in
since; else it has none. -/
def ActionResponse.Recorded (recording : Recording) (response : ActionResponse) : Prop :=
  ∃ call answer, recording.returned call answer ∧
    response = { answer with delay := response.delay, traces := response.traces } ∧
      if recording.tracing then List.Forall₂ Trace.Fills answer.traces response.traces
      else response.traces = []

/-- A script result that records what it is to, with those embedded in it. -/
inductive ScriptResult.Recorded (recording : Recording) : ScriptResult → Prop
  | intro {result : ScriptResult} (log : ∀ entry ∈ result.log, entry.user = recording.user)
      (responses : ∀ response, .action response ∈ result.entries → response.Recorded recording)
      (scripts : ∀ inner, .script inner ∈ result.entries → inner.Recorded recording) :
      result.Recorded recording

def ScriptEntry.Recorded (recording : Recording) : ScriptEntry → Prop
  | .action response => response.Recorded recording
  | .script result => result.Recorded recording

inductive ElementResult.Recorded (recording : Recording) : ElementResult → Prop
  | intro {result : ElementResult} (scripts : ∀ script ∈ result.scripts, script.Recorded recording)
      (results : ∀ child ∈ result.results, child.Recorded recording) : result.Recorded recording

def ConfigurationResult.Recorded (recording : Recording) (result : ConfigurationResult) : Prop :=
  ∀ top ∈ result.results, top.Recorded recording

theorem ScriptResult.recorded_of_entries {result : ScriptResult}
    (log : ∀ entry ∈ result.log, entry.user = recording.user)
    (entries : ∀ entry ∈ result.entries, entry.Recorded recording) : result.Recorded recording :=
  .intro log (fun _ responseMem => entries _ responseMem) fun _ innerMem => entries _ innerMem

/-! ### Traces that are filled in -/

section Fills

variable {σ : Type} {visit : TraceVisit σ}

theorem visitTraces_fills (fills : TraceVisit.Fills visit) (traces : List Trace) (state : σ) :
    List.Forall₂ Trace.Fills traces (visitTraces visit traces state).1 := by
  induction traces generalizing state with
  | nil => exact .nil
  | cons trace rest ih => exact .cons (fills trace state) (ih _)

theorem ActionResponse.Recorded.fill {response : ActionResponse}
    (recorded : response.Recorded recording) {traces : List Trace}
    (filled : List.Forall₂ Trace.Fills response.traces traces) :
    ActionResponse.Recorded recording { response with traces } := by
  rcases recorded with ⟨call, answer, returned, same, kept⟩
  refine ⟨call, answer, returned, ?_, ?_⟩
  · rw [same]
  · split at kept
    · rename_i tracing
      rw [if_pos tracing]
      exact fills_trans kept filled
    · rename_i noTracing
      rw [if_neg noTracing]
      rw [kept] at filled
      exact List.forall₂_nil_left_iff.mp filled

theorem ScriptResult.Recorded.visitTraces (fills : TraceVisit.Fills visit) {result : ScriptResult}
    (recorded : result.Recorded recording) (state : σ) :
    (result.visitTraces visit state).1.Recorded recording := by
  induction recorded generalizing state with
  | @intro result log responses scripts ih =>
      have entries (after : ScriptEntry)
          (afterMem : after ∈ (result.visitTraces visit state).1.entries) :
          ∃ before ∈ result.entries, ∃ state, after = (before.visitTraces visit state).1 := by
        cases result
        exact ScriptEntry.mem_visitAll afterMem
      refine ScriptResult.recorded_of_entries ?_ fun after afterMem => ?_
      · cases result
        exact log
      · rcases entries after afterMem with ⟨before, beforeMem, state, rfl⟩
        cases before with
        | action response => exact (responses response beforeMem).fill (visitTraces_fills fills _ _)
        | script inner => exact ih inner beforeMem state

theorem ElementResult.Recorded.visitTraces (fills : TraceVisit.Fills visit) {result : ElementResult}
    (recorded : result.Recorded recording) (state : σ) :
    (result.visitTraces visit state).1.Recorded recording := by
  induction recorded generalizing state with
  | @intro result scripts results ih =>
      refine .intro ?_ ?_
      · rw [scripts_visitTraces]
        intro script scriptMem
        rcases ScriptResult.mem_visitAll scriptMem with ⟨before, beforeMem, state, rfl⟩
        exact (scripts before beforeMem).visitTraces fills state
      · rcases result.exists_results_visitTraces state with ⟨next, visited⟩
        rw [visited]
        intro child childMem
        rcases mem_visitAll childMem with ⟨before, beforeMem, state, rfl⟩
        exact ih before beforeMem state

/-- The traces of a job's result are recorded as before once their contents are attached. -/
theorem ConfigurationResult.Recorded.attachTraces {result : ConfigurationResult}
    (recorded : result.Recorded recording) (cache : TraceCache) :
    (result.attachTraces cache).1.Recorded recording := by
  intro top topMem
  rcases ElementResult.mem_visitAll topMem with ⟨before, beforeMem, state, rfl⟩
  exact (recorded before beforeMem).visitTraces Trace.attach_fills state

end Fills

end Recorded

end TestEngine
