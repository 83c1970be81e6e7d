import TestEngine.Proofs.Job.State

/-!
# Verdicts of finished jobs

A call that returns that its job is finished has walked the whole configuration, or another call
has. The verdicts of its elements are then rolled up from everything below them, whatever has
happened on the way, and so is the verdict of the job. Only a job that was rejected while it was
under way is left without a verdict of its own: nobody brings it to its end any more.
-/

namespace TestEngine

namespace ConfigurationResult

/-! ### Results of jobs -/

/-- Whether an element result is in a result at some depth. -/
def Holds (result : ConfigurationResult) (inner : ElementResult) : Prop :=
  ∃ top ∈ result.results, top.Holds inner

/-- Whether some element of a result has a script that is or holds a given one. -/
def HoldsScript (result : ConfigurationResult) (script : ScriptResult) : Prop :=
  ∃ top ∈ result.results, top.HoldsScript script

def Stands (result : ConfigurationResult) : Prop :=
  ∀ inner, result.Holds inner → inner.verdict = some .passed ∨ inner.verdict = some .skipped

/-- A result whose verdict tells of everything in it. -/
structure Sound (result : ConfigurationResult) : Prop where
  passed : result.verdict = some .passed ↔ result.Stands
  failed : result.verdict = some .failed ↔ ¬result.Stands
  scripts : result.verdict = some .passed → ∀ script, result.HoldsScript script →
    script.verdict ≠ some .failed ∧ script.verdict ≠ some .aborted
  actions : result.verdict = some .passed → ∀ script, result.HoldsScript script →
    ∀ response ∈ script.actions, response.status ≠ .failed

/-- A result in which every element has failed below which something has. -/
def Tells (result : ConfigurationResult) : Prop :=
  ∀ inner, result.Holds inner → inner.FailsBelow → inner.isFailed

end ConfigurationResult

/-- An element whose visit is over has not failed exactly if it passed or was skipped. -/
theorem ElementResult.RolledUp.not_isFailed_iff {result : ElementResult}
    (rolledUp : result.RolledUp) :
    ¬result.isFailed ↔ result.verdict = some .passed ∨ result.verdict = some .skipped := by
  rcases rolledUp with ⟨judged, -, -, -, -⟩
  rcases Option.isSome_iff_exists.mp judged with ⟨verdict, isVerdict⟩
  cases verdict <;> simp [isFailed, Verdict.isFailed, Verdict.isFailure, isVerdict]

theorem ElementResult.RolledUp.tells {result : ConfigurationResult}
    (rolledUp : ∀ top ∈ result.results, top.RolledUp) : result.Tells := by
  rintro inner ⟨top, topMem, holds⟩ failsBelow
  exact ((rolledUp top topMem).of_holds holds).1.isFailed_of_failsBelow failsBelow

namespace ConfigurationResult.Judged

variable {result : ConfigurationResult}

/-- Nothing in a result has failed if and only if nothing at its top has. -/
theorem stands_iff (judged : result.Judged) :
    result.Stands ↔ ¬result.results.any ElementResult.isFailed := by
  simp only [List.any_eq_true, not_exists, not_and]
  constructor
  · intro stands top topMem
    exact (judged.rolledUp top topMem).not_isFailed_iff.mpr (stands top ⟨top, topMem, .itself⟩)
  · rintro topStands inner ⟨top, topMem, holds⟩
    rcases (judged.rolledUp top topMem).of_holds holds with ⟨innerRolledUp, innerStands⟩
    exact innerRolledUp.not_isFailed_iff.mp (innerStands (topStands top topMem))

theorem passed_iff (judged : result.Judged) : result.verdict = some .passed ↔ result.Stands := by
  rw [judged.stands_iff, judged.verdict]
  cases result.results.any ElementResult.isFailed <;> simp

theorem failed_iff (judged : result.Judged) : result.verdict = some .failed ↔ ¬result.Stands := by
  rw [judged.stands_iff, judged.verdict]
  cases result.results.any ElementResult.isFailed <;> simp

theorem passed_of_holdsScript (judged : result.Judged) (passed : result.verdict = some .passed)
    {script : ScriptResult} (holds : result.HoldsScript script) : script.Passed := by
  rcases holds with ⟨top, topMem, topHolds⟩
  have stands := judged.passed_iff.mp passed top ⟨top, topMem, .itself⟩
  have rolledUp := judged.rolledUp top topMem
  exact rolledUp.passed_of_holdsScript (rolledUp.not_isFailed_iff.mpr stands) topHolds

theorem sound (judged : result.Judged) : result.Sound where
  passed := judged.passed_iff
  failed := judged.failed_iff
  scripts passed script holds := by
    rcases judged.passed_of_holdsScript passed holds with ⟨verdict, -, -⟩
    simp [verdict]
  actions passed script holds response responseMem := by
    have scriptPassed := judged.passed_of_holdsScript passed holds
    simp [scriptPassed.action_passed responseMem]

end ConfigurationResult.Judged

/-! ### Calls that return that their job is finished -/

variable {ω : Type} {setting : Setting} {configuration : Configuration} {context : Context}
  {place call : Nat} {mayReject : Session → Prop} {first last : Machine ω JobStatus}
  {trace : List Asked}

/-- A job that some call found finished is over, or it was overruled after a whole walk. -/
theorem JobState.over_of_finished {mayOverrule : Prop} {session : Session}
    {stages : Nat → Option (Stage ω JobStatus)} {owner : Option Nat}
    (state : JobState setting configuration context mayOverrule trace session stages owner)
    (returned : stages call = some (.done .finished)) :
    (∃ told, session.Over .finished told) ∨
      mayOverrule ∧ session.Rejected ∧ configuration.Walked session.result.results := by
  by_cases isOwner : owner = some call
  · refine (state.over_of_returned ((state.executed call).mpr isOwner) returned).imp id ?_
    rintro ⟨may, rejected, walked⟩
    exact ⟨may, rejected, walked rfl⟩
  · -- A call that has not executed the job was told a status that the job still has.
    rcases state.bystanders call _ returned isOwner with ready | ⟨status, done, told⟩
    · exact nomatch ready
    · obtain rfl : JobStatus.finished = status := Stage.done.inj done
      rcases told with active | ⟨terminal, current⟩
      · exact nomatch active
      · rw [← current] at terminal
        rcases state.phase.over_of_isTerminal terminal with isOver | rejected
        · exact .inl (current ▸ isOver)
        · exact nomatch current.symm.trans rejected.status

/-- Once a call has returned that its job is finished, the verdicts of all elements tell of
everything below them, and so does the verdict of the job, unless the job was rejected while it was
under way. -/
theorem Machine.Course.finished_sound (opens : first.Opens place configuration)
    (course : Course place (· = configuration.runJob setting context) mayReject first trace last)
    (returned : (last.view place).stages call = some (.done .finished)) :
    ∃ session, (last.view place).session = some session ∧ session.result.Tells ∧
      (session.result.Sound ∨
        (∃ active, mayReject active ∧ active.control.status.isActive) ∧
          session.control.status = .rejected ∧ session.result.verdict = none) := by
  rcases opens.jobState course with ⟨session, hasSession, owner, state⟩
  refine ⟨session, hasSession, ?_⟩
  rcases state.over_of_finished returned with ⟨told, isOver⟩ | ⟨may, rejected, walked⟩
  · have judged := (isOver.result.finished rfl).2
    exact ⟨ElementResult.RolledUp.tells judged.rolledUp, .inl judged.sound⟩
  · refine ⟨ElementResult.RolledUp.tells walked.rolledUp, .inr ?_⟩
    exact ⟨may, rejected.status, rejected.verdict⟩

/-- The small job has a verdict that tells of its one element. -/
theorem Machine.sample_finished_sound :
    ∃ session, (((Machine.sample.spawn 0 .sample).poll 0).view 0).session = some session ∧
      session.result.Tells ∧ session.result.Sound := by
  have started :
      Course 0 (· = .sample) (fun _ => False) Machine.sample _ (.spawn .sample 0 .sample) :=
    .step .start (.spawn rfl)
  have returned : (((Machine.sample.spawn 0 .sample).poll 0).view 0).stages 0 =
      some (.done .finished) := view_stages_eq_done.mpr (by decide +kernel)
  rcases Course.finished_sound Machine.sample_opens (started.step (.poll rfl)) returned with
    ⟨session, hasSession, tells, sound | ⟨⟨active, may, -⟩, -⟩⟩
  · exact ⟨session, hasSession, tells, sound⟩
  · exact absurd may id

theorem ConfigurationResult.not_sound_of_verdict {result : ConfigurationResult}
    (noVerdict : result.verdict = none) : ¬result.Sound := by
  intro sound
  have failed : ¬result.Stands := fun stands => by
    simpa [noVerdict] using sound.passed.mpr stands
  simpa [noVerdict] using sound.failed.mpr failed

/-- The small job is left without a verdict if it is rejected while it is paused. Its call returns
all the same that it is finished. -/
theorem Machine.sample_overruled_not_sound :
    ∃ trace last session, Course 0 (· = .sample) (fun _ => True) Machine.sample trace last ∧
      (last.view 0).stages 0 = some (.done .finished) ∧
      (last.view 0).session = some session ∧ ¬session.result.Sound := by
  let ready := (Machine.sample.modifyControl 0 Signal.pause.act).spawn 0 Program.sample
  let rejected := (ready.poll 0).modifySession 0 fun session => session.reject (.ofEpochMillis 0)
  have started : Course 0 (· = .sample) (fun _ => True) Machine.sample _ ready :=
    .step (.step .start (.signal .pause)) (.spawn rfl)
  have overruled : Course 0 (· = .sample) (fun _ => True) Machine.sample _ rejected :=
    .step (started.step (.poll rfl)) (.reject rfl trivial (.ofEpochMillis 0))
  have returned : ((rejected.poll 0).view 0).stages 0 = some (.done .finished) :=
    view_stages_eq_done.mpr (by decide +kernel)
  exact ⟨_, _, _, overruled.step (.poll rfl), returned, rfl,
    ConfigurationResult.not_sound_of_verdict (by decide +kernel)⟩

end TestEngine
