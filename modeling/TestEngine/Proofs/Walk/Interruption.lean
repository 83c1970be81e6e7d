import TestEngine.Proofs.Machine.Chronicle
import TestEngine.Proofs.Walk.Completeness
import TestEngine.Proofs.Walk.Unwinding

/-!
# Interrupted walks

What a task that walks a configuration leaves in its session, however it is interrupted. A walk that
went through has left nothing aborted. Of one that was interrupted, the visits that were still open
have failed, from the innermost one upwards, and a script is aborted at most where the interruption
was noticed. Nothing on the way takes the interruption for something else: whoever is told of one
ends as interrupted, be it a step, a script or the walk, and nobody else does.
-/

namespace TestEngine

variable {ω : Type} {setting : Setting} {configuration : Configuration} {context : Context}

/-- The results that a walk of a configuration leaves behind. -/
structure ConfigurationRun.LeavesBehind (ran : ConfigurationRun) (results : List ElementResult) :
    Prop where
  shown : ran.ending ≠ .crashed → results = ran.results
  completed : ran.ending = .completed → ∀ top ∈ results, ∀ script, top.HoldsScript script →
    script.verdict ≠ some .aborted
  interrupted : ran.ending = .interrupted → ∃ told, ElementResult.Unwound told results

/-- How interruptions go through the runs of a configuration, whatever the answers to their requests
are. Each program begins with what is known of the run by then, and ends with what is known of it
afterwards. -/
structure Configuration.PassesOn (configuration : Configuration) (setting : Setting)
    (context : Context) : Prop where
  walk : (configuration.run setting context).Obeys chronicling .initial fun ran reached =>
    ran.Unwinds reached
  script (script : Script) (context : Context) (before : Chronicle) :
    (script.run setting context).Obeys chronicling before fun ran reached =>
      ran.Unwinds before reached
  step (step : Step) (frame : Frame) (before : Chronicle) :
    (step.visit setting).Obeys chronicling frame before fun outcome after reached =>
      (frame.mark before).Unwinds (Visit.stop outcome) (after.mark reached)

theorem Configuration.passesOn (configuration : Configuration) (setting : Setting)
    (context : Context) : configuration.PassesOn setting context where
  walk := configuration.run_unwinds setting context
  script script := script.run_unwinds setting
  step step := step.visit_honors unwinding setting

/-- Of the session of a walk nothing has to be known but its results. -/
theorem walk_chronicleLaw : ChronicleLaw ω (fun _ => True) (fun _ => True) :=
  ⟨fun _ _ => trivial, fun _ _ => trivial, fun _ _ _ => trivial, fun _ _ _ _ _ => trivial⟩

theorem ConfigurationRun.Unwinds.leavesBehind {ran : ConfigurationRun} {chronicle : Chronicle}
    {session : Session} {during isOver : Session → Prop} (unwinds : ran.Unwinds chronicle)
    (bears : session.Bears during isOver chronicle) :
    ran.LeavesBehind session.result.results := by
  cases unwinds with
  | settled completed settled =>
      have shows : session.result.results = ran.results := (bears.underWay rfl).1
      refine ⟨fun _ => shows, fun _ top topMem script holds => ?_, fun interrupted => ?_⟩
      · exact (settled top (shows ▸ topMem)).verdict_ne_aborted holds
      · exact nomatch completed.symm.trans interrupted
  | unwound interrupted unwound =>
      have shows : session.result.results = ran.results := (bears.underWay rfl).1
      refine ⟨fun _ => shows, fun completed => ?_, fun _ => ⟨_, shows.symm ▸ unwound⟩⟩
      exact nomatch completed.symm.trans interrupted
  | crashed crashed =>
      refine ⟨fun notCrashed => absurd crashed notCrashed, fun completed => ?_,
        fun interrupted => ?_⟩
      · exact nomatch completed.symm.trans crashed
      · exact nomatch interrupted.symm.trans crashed

namespace Machine

variable {place call : Nat} {mayReject : Session → Prop} {first last : Machine ω ConfigurationRun}
  {trace : List Asked}

theorem unwinding_courseLaw (call : Nat) (mayReject : Session → Prop) :
    CourseLaw (fun _ => False) mayReject
      fun _ session (stages : Nat → Option (Stage ω ConfigurationRun)) =>
        ∃ stage, stages = Function.update (fun _ => none) call (some stage) ∧
          stage.Chronicles ConfigurationRun.Unwinds (fun _ => True) (fun _ => True) session :=
  sole_courseLaw call mayReject
    (fun _ _ registry world chronicles => walk_chronicleLaw.poll chronicles registry world)
    fun _ _ _ sameResults chronicles => chronicles.transfer sameResults id id

/-- An interruption is passed on by everything in a walk, and leaves failed elements along the
rightmost path only, whatever has happened meanwhile. -/
theorem Course.walk_unwinds {session : Session}
    (hasSession : (first.view place).session = some session)
    (noResults : session.result.results = [])
    (hasStages : (first.view place).stages =
      Function.update (fun _ => none) call (some (.ready (configuration.run setting context))))
    (course : Course place (fun _ => False) mayReject first trace last) {ran : ConfigurationRun}
    (returned : (last.view place).stages call = some (.done ran)) :
    (∃ session, (last.view place).session = some session ∧
      ran.LeavesBehind session.result.results) ∧ configuration.PassesOn setting context := by
  refine ⟨?_, configuration.passesOn setting context⟩
  have begins : Stage.Chronicles ConfigurationRun.Unwinds (fun _ => True) (fun _ => True) session
      (.ready (configuration.run setting context) : Stage ω ConfigurationRun) :=
    ⟨.initial, configuration.run_unwinds setting context, fun _ => ⟨noResults, trivial⟩,
      fun _ => trivial⟩
  rcases (unwinding_courseLaw call mayReject).run [] course hasSession ⟨_, hasStages, begins⟩ with
    ⟨session, hasSession, stage, stages, chronicle, keeps, bears⟩
  obtain rfl : stage = .done ran := by simpa [stages] using returned
  exact ⟨session, hasSession, ConfigurationRun.Unwinds.leavesBehind keeps bears⟩

end Machine

/-- A configuration of one element, whose script holds another one that waits between the iterations
of a loop. -/
def Configuration.waiting : Configuration where
  id := "c"
  name := "Looping"
  environment := none
  release := none
  elements :=
    [⟨"a", "A", 1, .automatic, false, [],
      [⟨"t", "T", 1, [⟨"1", 1, .script ⟨"u", "U", 1, [⟨"1", 1, .loop ⟨2, 0, none, 5⟩ []⟩]⟩⟩]⟩],
      [], [], some ⟨"s", "S", 0, .many, false, false, .predecessor, false⟩⟩]

namespace Machine

/-- The walk is interrupted while the embedded script waits. -/
theorem sample_walk_unwinds :
    ∃ last : Machine Unit ConfigurationRun, ∃ session, (last.view 0).session = some session ∧
      (∃ told, ElementResult.Unwound told session.result.results) ∧
        session.result.results.map ElementResult.verdict = [some .failed] ∧
          (session.result.results.flatMap ElementResult.scripts).map ScriptResult.verdict =
            [some .aborted] := by
  let opened : Machine Unit ConfigurationRun :=
    ((Machine.initial .empty (.initial 0 .empty ())).openSession .unattended).1
  let first := opened.spawn 0 (Configuration.waiting.run .sample (.ofProperties []))
  let interrupted := (first.poll 0).modifyControl 0 Control.interrupt
  let last := interrupted.poll 0
  have hasStages : (first.view 0).stages = Function.update (fun _ => none) 0
      (some (.ready (Configuration.waiting.run .sample (.ofProperties [])))) :=
    congrArg View.stages (view_spawn _)
  have waits : ((interrupted.view 0).stages 0).isSome := by decide +kernel
  rcases Option.isSome_iff_exists.mp waits with ⟨stage, hasStage⟩
  have course : Course 0 (fun _ => False) (fun _ => False) first _ last :=
    .step (.step (.step .start (.poll (congrFun hasStages 0))) (.signal .interrupt))
      (.poll hasStage)
  have ends : ((last.view 0).stages 0).any fun stage =>
      stage.value?.any fun ran => ran.ending = .interrupted := by decide +kernel
  rcases (Option.any_eq_true _ _).mp ends with ⟨stage, hasStage, ended⟩
  rcases (Option.any_eq_true _ _).mp ended with ⟨ran, hasValue, isInterrupted⟩
  have returned : ((last.view 0).stages 0).bind Stage.value? = some ran := by
    rw [hasStage]
    exact hasValue
  rcases (Course.walk_unwinds rfl rfl hasStages course (view_stages_eq_done.mpr returned)).1 with
    ⟨session, hasSession, leaves⟩
  refine ⟨last, session, hasSession, leaves.interrupted (of_decide_eq_true isInterrupted), ?_⟩
  have verdicts : (last.view 0).session.map (fun session =>
      (session.result.results.map ElementResult.verdict,
        (session.result.results.flatMap ElementResult.scripts).map ScriptResult.verdict)) =
      some ([some .failed], [some .aborted]) := by decide +kernel
  rw [hasSession] at verdicts
  exact Prod.ext_iff.mp (Option.some.inj verdicts)

end Machine

end TestEngine
