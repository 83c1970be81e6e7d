import TestEngine.Proofs.Chronicle
import TestEngine.Proofs.Machine.Course
import TestEngine.Proofs.Session.Onward

/-!
# Chronicles on a machine

A task whose program keeps a chronicle does so from poll to poll, and its session shows what the
chronicle says as long as the run is under way. `ChronicleLaw` says what else has to be known of the
session; `ChronicleLaw.pollLaw` is the invariant that one poll after the other keeps.
-/

namespace TestEngine

variable {ω α : Type}

/-- What holds of a session as long as a run is under way whose results only grow, and what once the
run has ended its job. -/
structure ChronicleLaw (ω : Type) (during isOver : Session → Prop) : Prop where
  onward {before after : Session} (holds : during before) (onward : before.Onward after) :
    during after
  overOnward {before after : Session} (holds : isOver before) (onward : before.Onward after) :
    isOver after
  publish {session : Session} (holds : during session) {results : List ElementResult}
    (grow : ElementResult.AllGrow session.result.results results) :
    during { session with result := { session.result with results } }
  endJob (registry : Registry ω) {session : Session} (world : World ω) (ending : Ending)
    (holds : during session) :
    isOver ((Request.endJob ending).carryOut registry session world).session

/-- A task that keeps a chronicle from where it stands. -/
def Stage.Keeps (condition : α → Chronicle → Prop) (chronicle : Chronicle) : Stage ω α → Prop
  | .ready program => program.Obeys chronicling chronicle condition
  | @Stage.waiting _ _ request _ next =>
      ∀ answer, (next answer).Obeys chronicling (chronicle.after request answer) condition
  | .done value => condition value chronicle

section Chronicles

variable (condition : α → Chronicle → Prop) (during isOver : Session → Prop)

/-- A session that shows what a chronicle says. -/
structure Session.Bears (session : Session) (chronicle : Chronicle) : Prop where
  underWay : chronicle.isOver = false →
    session.result.results = chronicle.shown ∧ during session
  isOver : chronicle.isOver = true → isOver session

def Program.Chronicles (session : Session) (program : Program α) : Prop :=
  ∃ chronicle, program.Obeys chronicling chronicle condition ∧ session.Bears during isOver chronicle

/-- A task that keeps the chronicle which its session shows. -/
def Stage.Chronicles (session : Session) (stage : Stage ω α) : Prop :=
  ∃ chronicle, stage.Keeps condition chronicle ∧ session.Bears during isOver chronicle

end Chronicles

variable {condition : α → Chronicle → Prop} {during isOver : Session → Prop}

theorem Session.Bears.transfer {otherDuring otherOver : Session → Prop} {before after : Session}
    {chronicle : Chronicle} (bears : before.Bears during isOver chronicle)
    (sameResults : after.result.results = before.result.results)
    (holds : during before → otherDuring after) (overHolds : isOver before → otherOver after) :
    after.Bears otherDuring otherOver chronicle where
  underWay underWay :=
    ⟨sameResults.trans (bears.underWay underWay).1, holds (bears.underWay underWay).2⟩
  isOver ended := overHolds (bears.isOver ended)

theorem Stage.Chronicles.transfer {otherDuring otherOver : Session → Prop} {before after : Session}
    {stage : Stage ω α} (chronicles : stage.Chronicles condition during isOver before)
    (sameResults : after.result.results = before.result.results)
    (holds : during before → otherDuring after) (overHolds : isOver before → otherOver after) :
    stage.Chronicles condition otherDuring otherOver after := by
  rcases chronicles with ⟨chronicle, keeps, bears⟩
  exact ⟨chronicle, keeps, bears.transfer sameResults holds overHolds⟩

namespace ChronicleLaw

theorem bears_onward (law : ChronicleLaw ω during isOver) {before after : Session}
    {chronicle : Chronicle} (bears : before.Bears during isOver chronicle)
    (onward : before.Onward after) : after.Bears during isOver chronicle :=
  bears.transfer onward.results (law.onward · onward) (law.overOnward · onward)

/-- A request that is not chronicled leaves its task with the chronicle that the session shows. -/
theorem keeps_chronicles {chronicle : Chronicle} {request : Request} {carried : Carried ω request}
    {next : request.Answer → Program α}
    (obeys : ∀ answer, (next answer).Obeys chronicling (chronicle.after request answer) condition)
    (still : chronicle.goesOn request = chronicle)
    (bears : carried.session.Bears during isOver chronicle) :
    carried.Keeps (Stage.Chronicles condition during isOver)
      (Program.Chronicles condition during isOver) next := by
  rw [Carried.Keeps]
  cases carried.outcome with
  | waiting wait => exact ⟨chronicle, obeys, bears⟩
  | answered answer =>
      refine ⟨_, obeys answer, ?_⟩
      rw [Chronicle.after, still]
      split
      · exact ⟨bears.underWay, bears.isOver⟩
      · exact bears

/-- A task keeps its chronicle, whatever comes to pass meanwhile. -/
theorem pollLaw (law : ChronicleLaw ω during isOver) (registry : Registry ω)
    (condition : α → Chronicle → Prop) :
    PollLaw registry (Stage.Chronicles condition during isOver)
      (Program.Chronicles condition during isOver) fun _ _ => True where
  start kept := kept
  finish kept := kept
  ask := by
    rintro session world request next ⟨chronicle, ⟨allowed, obeys⟩, bears⟩
    refine ⟨trivial, ?_⟩
    have onward (ordinary : request.isOrdinary) :=
      request.carryOut_onward registry session world ordinary
    cases request with
    | beginJob => exact allowed.elim
    | publish results =>
        rcases allowed with ⟨underWay, grow⟩
        rcases bears.underWay underWay with ⟨shows, holds⟩
        refine ⟨_, obeys (), ⟨fun _ => ⟨rfl, law.publish holds (shows.symm ▸ grow)⟩, ?_⟩⟩
        exact fun isOver => nomatch underWay.symm.trans isOver
    | endJob ending =>
        have holds := (bears.underWay allowed).2
        refine ⟨_, obeys _, ⟨?_, fun _ => law.endJob registry world ending holds⟩⟩
        exact fun underWay => Bool.noConfusion (underWay : true = false)
    | _ => exact keeps_chronicles obeys rfl (law.bears_onward bears (onward rfl))
  resume := by
    rintro session world request wait next ⟨chronicle, obeys, bears⟩
    have still : chronicle.goesOn request = chronicle := by cases wait <;> rfl
    exact keeps_chronicles obeys still (law.bears_onward bears (wait.resume_onward session world))

theorem poll (law : ChronicleLaw ω during isOver) {stage : Stage ω α} {session : Session}
    (chronicles : stage.Chronicles condition during isOver session) (registry : Registry ω)
    (world : World ω) :
    let after := stage.poll registry session world
    after.stage.Chronicles condition during isOver after.session :=
  ((law.pollLaw registry condition).poll 0 stage world chronicles).1

end ChronicleLaw

end TestEngine
