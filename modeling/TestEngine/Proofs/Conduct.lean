import TestEngine.Proofs.Protocol

/-!
# The conduct of a run

The protocol that runs keep to, be they scripts, walks or whole jobs. It says three things: a
capability is called, or a lock called for, only if nothing can have interrupted the run since its
last checkpoint; a job is ended at most once, and once its walk is complete only with results of a
given kind; and nothing is asked after that. The state of the protocol is the `Standing` of a run,
which also keeps the results that were published last.
-/

namespace TestEngine

def Request.isCall : Request → Bool
  | perform _ | execute _ | verify .. => true
  | _ => false

/-- Whether a request is made only right after a checkpoint. -/
def Request.isChecked : Request → Bool
  | acquire .. => true
  | request => request.isCall

/-- Whether a request is made anywhere and says nothing of the progress of a run. -/
def Request.isQuiet : Request → Bool
  | sleep _ | elapsed | now | release _ | noteStart | openInteraction
  | awaitInteraction | cancelRun | awaitResume => true
  | _ => false

/-- What is known of a run from its requests and their answers. -/
structure Standing where
  /-- The results that were published last. -/
  published : List ElementResult
  /-- Whether nothing can have interrupted the run since its last checkpoint. -/
  clear : Bool
  /-- The status that the job was ended with. -/
  ended : Option JobStatus

namespace Standing

/-- The standing of a run that has asked nothing yet. -/
def initial : Standing := ⟨[], false, none⟩

/-- The standing after a request was answered. Of the requests that leave the run where it is, only
the move of the cursor stands between a checkpoint and a call. -/
def after (standing : Standing) : (request : Request) → request.Answer → Standing
  | .checkpoint, goesOn => { standing with clear := goesOn }
  | .moveTo _, _ => standing
  | .publish results, _ => { standing with published := results, clear := false }
  | .endJob _, status => { standing with clear := false, ended := some status }
  | _, _ => { standing with clear := false }

end Standing

/-- The protocol of runs; a complete walk has to end its job with good results. -/
def conduct (good : List ElementResult → Prop) : Protocol Standing where
  allows standing request :=
    standing.ended = none ∧
      match request with
      | .perform _ | .execute _ | .verify .. | .acquire .. => standing.clear = true
      | .endJob ending => ending = .completed → good standing.published
      | .beginJob => False
      | _ => True
  after := Standing.after

/-- A run under way that keeps the published results as they are. -/
def Standing.Remains (before after : Standing) : Prop :=
  after.published = before.published ∧ after.ended = none

theorem Standing.Remains.trans {first middle last : Standing} (before : first.Remains middle)
    (after : middle.Remains last) : first.Remains last :=
  ⟨after.1.trans before.1, after.2⟩

theorem conduct_allows_of_isQuiet {good : List ElementResult → Prop} {standing : Standing}
    {request : Request} (underWay : standing.ended = none) (quiet : request.isQuiet) :
    (conduct good).allows standing request := by
  cases request <;> simp_all [Request.isQuiet, conduct]

theorem Standing.remains_after_of_isQuiet {standing : Standing} {request : Request}
    (underWay : standing.ended = none) (quiet : request.isQuiet) (answer : request.Answer) :
    standing.Remains (standing.after request answer) := by
  cases request <;> simp_all [Request.isQuiet, Remains, after]

theorem conduct_allows_of_isChecked {good : List ElementResult → Prop} {standing : Standing}
    {request : Request} (underWay : standing.ended = none) (clear : standing.clear = true)
    (checked : request.isChecked) : (conduct good).allows standing request := by
  cases request <;> simp_all [Request.isChecked, Request.isCall, conduct]

theorem Standing.remains_after_of_isChecked {standing : Standing} {request : Request}
    (underWay : standing.ended = none) (checked : request.isChecked) (answer : request.Answer) :
    standing.Remains (standing.after request answer) := by
  cases request <;> simp_all [Request.isChecked, Request.isCall, Remains, after]

end TestEngine
