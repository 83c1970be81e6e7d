import TestEngine.Proofs.Result.Growth
import TestEngine.Proofs.Script.Contract

/-!
# The chronicle of a run

The protocol that follows a run by what it has published: the tree may only grow from one
publication to the next, and nothing is published once the job was ended. The chronicle also keeps
the tree as it was when the run was first told that it is interrupted.
-/

namespace TestEngine

/-- What is known of a run from what it has published and been told. -/
structure Chronicle where
  /-- The results that were published last. -/
  shown : List ElementResult
  /-- The results that were shown when the run was first told of its interruption. -/
  told : Option (List ElementResult)
  /-- Whether the run has ended its job. -/
  isOver : Bool

namespace Chronicle

/-- The chronicle of a run that has asked nothing yet. -/
def initial : Chronicle := ⟨[], none, false⟩

/-- The chronicle of a run that is told of its interruption. -/
def tell (chronicle : Chronicle) : Chronicle :=
  { chronicle with told := chronicle.told <|> some chronicle.shown }

@[simp]
theorem tell_tell (chronicle : Chronicle) : chronicle.tell.tell = chronicle.tell := by
  rcases chronicle with ⟨shown, told | told, isOver⟩ <;> rfl

/-- The chronicle of a run that goes on with the answer to a request. -/
def goesOn (chronicle : Chronicle) : Request → Chronicle
  | .publish results => { chronicle with shown := results }
  | .endJob _ => { chronicle with isOver := true }
  | _ => chronicle

def after (chronicle : Chronicle) (request : Request) (answer : request.Answer) : Chronicle :=
  if request.tells answer then chronicle.tell else chronicle.goesOn request

theorem after_of_tells {chronicle : Chronicle} {request : Request} {answer : request.Answer}
    (tells : request.tells answer = true) : chronicle.after request answer = chronicle.tell :=
  if_pos tells

/-- The chronicle of a visit that stopped as given. -/
def stopped (chronicle : Chronicle) : Option Abort → Chronicle
  | some .interrupted => chronicle.tell
  | _ => chronicle

theorem stopped_of_ne (chronicle : Chronicle) {stop : Option Abort}
    (notInterrupted : stop ≠ some .interrupted) : chronicle.stopped stop = chronicle := by
  rcases stop with _ | _ | _ | error
  · rfl
  · exact absurd rfl notInterrupted
  · rfl
  · rfl

end Chronicle

/-- The protocol of runs whose results only grow. -/
def chronicling : Protocol Chronicle where
  allows chronicle request :=
    match request with
    | .publish results =>
        chronicle.isOver = false ∧ ElementResult.AllGrow chronicle.shown results
    | .endJob _ => chronicle.isOver = false
    | .beginJob => False
    | _ => True
  after := Chronicle.after

theorem chronicling_allows_of_isOfVisit (chronicle : Chronicle) {request : Request}
    (ofVisit : request.isOfVisit) : chronicling.allows chronicle request := by
  cases request <;> simp_all [Request.isOfVisit, chronicling]

/-- Requests other than those to publish and to end the job are chronicled only if they tell. -/
theorem Chronicle.after_of_isOfVisit (chronicle : Chronicle) {request : Request}
    (ofVisit : request.isOfVisit) {answer : request.Answer}
    (untold : request.tells answer = false) : chronicle.after request answer = chronicle := by
  rw [after, if_neg (by simp [untold])]
  cases request with
  | publish results => exact nomatch ofVisit
  | endJob ending => exact nomatch ofVisit
  | _ => rfl

end TestEngine
