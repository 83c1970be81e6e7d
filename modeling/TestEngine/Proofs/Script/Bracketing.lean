import TestEngine.Proofs.Script.Arrival
import TestEngine.Proofs.Script.Closure
import TestEngine.Proofs.Script.FailFast

/-!
# Locks are given back

A run gives the locks that it was granted back in the opposite order, and when it has ended it has
given back all of them. This is a matter of its requests and their answers alone: every visit ends
with the locks that it began with, be its outcome an error, an interruption or a crash, and never
gives back one of those. So the requests that a run has still to make tell which locks it holds.
-/

namespace TestEngine

variable {α β ν : Type}

/-! ### The locks that are held -/

/-- The protocol of runs that give back what they were granted. Its state are the names of the locks
that a run holds, the one first that was granted last, and only that one may be given back. -/
def guarding : Protocol (List String) where
  allows
    | held, .release name => held.head? = some name
    | _, _ => True
  after
    | held, .acquire name _, answer => if answer = .granted then name :: held else held
    | held, .release _, _ => held.tail
    | held, _, _ => held

theorem guarding_allows {held : List String} {request : Request}
    (aside : request.isLocking = false) : guarding.allows held request := by
  cases request with
  | release name => exact nomatch aside
  | _ => exact trivial

theorem guarding_after {held : List String} {request : Request}
    (aside : request.isLocking = false) (answer : request.Answer) :
    guarding.after held request answer = held := by
  cases request with
  | acquire name timeout => exact nomatch aside
  | release name => exact nomatch aside
  | _ => rfl

/-- What is allowed with some locks does the same if more of them are held below. -/
theorem guarding_append {held : List String} {request : Request}
    (allowed : guarding.allows held request) (answer : request.Answer) (below : List String) :
    guarding.after (held ++ below) request answer =
      guarding.after held request answer ++ below := by
  cases request with
  | acquire name timeout =>
      simp only [guarding]
      split <;> rfl
  | release name =>
      cases held with
      | nil => exact nomatch allowed
      | cons last held => rfl
  | _ => rfl

/-! ### Programs -/

/-- A program that ends with the locks that it began with. -/
def Program.Balanced (program : Program α) : Prop :=
  ∀ held, program.Obeys guarding held fun _ after => after = held

/-- What is left to do tells which locks are held, if all of them are given back in the end. -/
theorem Program.Obeys.held_unique {program : Program α} {held other : List String}
    (obeys : program.Obeys guarding held fun _ after => after = [])
    (otherObeys : program.Obeys guarding other fun _ after => after = []) : held = other := by
  induction program generalizing held other with
  | done value => exact obeys.trans otherObeys.symm
  | ask request next ih =>
      have same := ih (Request.refused request) (obeys.2 _) (otherObeys.2 _)
      cases request with
      | acquire name timeout => simpa [guarding, Request.refused] using same
      | release name =>
          cases held with
          | nil => exact nomatch obeys.1
          | cons last held =>
              cases other with
              | nil => exact nomatch otherObeys.1
              | cons otherLast other =>
                  have sameLast : some last = some otherLast := obeys.1.trans otherObeys.1.symm
                  exact congrArg₂ List.cons (Option.some.inj sameLast) same
      | _ => exact same

namespace Program.Leads

variable {program : Program α} {history : List (Exchange ν)} {rest : Program α}

/-- What a program obeys it obeys from each place on. -/
theorem obeys {σ : Type} {protocol : Protocol σ} {condition : α → σ → Prop} {state : σ}
    (leads : program.Leads history rest) (obeys : program.Obeys protocol state condition) :
    rest.Obeys protocol (protocol.follow state history) condition := by
  induction leads generalizing state with
  | here => exact obeys
  | ask _ ih => exact ih (obeys.2 _)

/-- A program that begins without locks does not touch those that are held below it. -/
theorem follow_append {condition : α → List String → Prop} {held : List String}
    (leads : program.Leads history rest) (obeys : program.Obeys guarding held condition)
    (below : List String) :
    guarding.follow (held ++ below) history = guarding.follow held history ++ below := by
  induction leads generalizing held with
  | here => rfl
  | @ask request _ _ answer _ _ _ ih =>
      rw [Protocol.follow, List.foldl_cons, guarding_append obeys.1 answer below]
      exact ih (obeys.2 answer)

end Program.Leads

/-! ### Visits -/

/-- A visit that ends with the locks that it began with. -/
def Visit.Balanced (visit : Visit α) : Prop :=
  ∀ frame held, visit.Obeys guarding frame held fun _ _ after => after = held

namespace Visit

variable {name : String} {timeout : Nat} {body : Visit Flow}

theorem balanced_composes : Composes fun _ visit => visit.Balanced where
  pure _ _ _ := rfl
  abort _ _ _ := rfl
  bind first rest := by
    intro frame held
    rw [obeys_bind]
    refine (first frame held).imp ?_
    rintro (reason | value) middle _ rfl
    · rfl
    · exact rest value middle _
  frame _ _ := rfl
  modify _ _ _ := rfl
  ask request aside := fun _ _ => ⟨guarding_allows aside, guarding_after aside⟩
  attempt tried := by
    intro frame held
    rw [obeys_attempt]
    exact tried frame held

/-- A lock that was granted is on top again when its body is over, however that has ended. -/
theorem balanced_lock (name : String) (timeout : Nat) (balanced : body.Balanced) :
    (lock name timeout body).Balanced := by
  intro frame held
  rw [lock, obeys_bind, obeys_ask]
  refine ⟨trivial, fun answer => ?_⟩
  cases answer with
  | granted =>
      change (attempt body >>= fun outcome => _).Obeys guarding frame (name :: held) _
      rw [obeys_bind, obeys_attempt]
      refine (balanced frame (name :: held)).imp ?_
      rintro outcome after _ rfl
      change (ask (.release name) >>= fun _ => conclude outcome).Obeys guarding after
        (name :: held) _
      rw [obeys_bind, obeys_ask]
      exact ⟨rfl, fun _ => obeys_conclude.mpr rfl⟩
  | timedOut => rfl
  | cancelled =>
      have givesUp : Balanced (do checkpoint; (abort .interrupted : Visit Flow)) :=
        balanced_composes.bind balanced_composes.inherits.checkpoint fun _ =>
          balanced_composes.abort _
      exact givesUp frame held

theorem balanced_runScript (id script : String) (balanced : body.Balanced) (context : Context) :
    (runScript id script body context).Balanced := by
  intro held
  have visits : Balanced (do moveTo fun context => context.enterScript script; body) :=
    balanced_composes.bind (balanced_composes.moveTo _) fun _ => balanced
  rw [runScript, Program.obeys_ask]
  refine ⟨trivial, fun start => ?_⟩
  rw [Program.obeys_bind]
  refine Program.Obeys.imp (visits ⟨context, [], []⟩ held) ?_
  rintro ⟨outcome, frame⟩ _ rfl
  rcases outcome with (_ | _ | error) | flow
  · exact ⟨trivial, fun _ => rfl⟩
  · rfl
  · exact ⟨trivial, fun _ => rfl⟩
  · exact ⟨trivial, fun _ => rfl⟩

theorem balanced_law (setting : Setting) :
    VisitLaw setting (fun _ => True) Balanced Balanced
      fun _ run => ∀ context, (run context).Balanced :=
  balanced_composes.visitLaw setting (fun name timeout _ => balanced_lock name timeout)
    (fun id script _ => balanced_runScript id script) fun balanced context _ held =>
      obeys_lift.mpr (balanced context held)

end Visit

theorem Script.run_balanced (setting : Setting) (script : Script) (context : Context) :
    (script.run setting context).Balanced :=
  (Visit.balanced_law setting).run script (script.everyLoop_of_forall fun _ => trivial) context

end TestEngine
