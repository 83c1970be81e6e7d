import TestEngine.Proofs.Conduct
import TestEngine.Proofs.Machine.Trace
import TestEngine.Proofs.Session.Onward

/-!
# Runs on a machine

The protocol of runs follows a run by its requests and their answers alone. Here the answers are
those that a session gives, so what the protocol knows is true of the session: the results are the
ones that were published last, and a run that nothing can have interrupted is not interrupted.

A task whose program keeps to the conduct of runs does so from poll to poll, and the session it
works on is what the protocol takes it for. `RunLaw` says what else has to be known of the session,
as long as the run is under way and once it has ended its job; `RunLaw.pollLaw` is the invariant
that one poll after the other keeps.
-/

namespace TestEngine

variable {ω α : Type} {good : List ElementResult → Prop} {condition : α → Standing → Prop}

/-- What a standing says is true of a session. -/
structure Session.Shows (session : Session) (standing : Standing) : Prop where
  results : session.result.results = standing.published
  clear : standing.clear → session.control.interrupted = false

/-- The standing of a run that may have been interrupted meanwhile. -/
def Standing.unclear (standing : Standing) : Standing := { standing with clear := false }

theorem Session.Shows.unclear {session : Session} {standing : Standing}
    (shows : session.Shows standing) : session.Shows standing.unclear :=
  ⟨shows.results, fun clear => absurd clear Bool.false_ne_true⟩

theorem Session.Shows.onward {before after : Session} {standing : Standing}
    (shows : before.Shows standing) (onward : before.Onward after) :
    after.Shows standing.unclear :=
  ⟨onward.results.trans shows.results, fun clear => absurd clear Bool.false_ne_true⟩

theorem Session.published_shows {session : Session} {standing : Standing} {request : Request}
    (shows : session.Shows standing) (answer : request.Answer) :
    (session.published request).result.results = (standing.after request answer).published := by
  cases request with
  | publish results => rfl
  | _ => exact shows.results

/-- A run that its checkpoint lets go on is not interrupted. -/
theorem Session.not_interrupted_of_notice {session : Session}
    (unnoticed : session.notice.2 = false) :
    session.notice.1.control.interrupted = false := by
  have notInterrupted : session.control.interrupted = false := unnoticed
  rw [session.notice_of_not_interrupted notInterrupted]
  exact notInterrupted

/-- A run that nothing can have interrupted according to its requests and answers is not
interrupted. -/
theorem Request.carryOut_clear (registry : Registry ω) {session : Session} (world : World ω)
    {request : Request} {standing : Standing}
    (before : standing.clear → session.control.interrupted = false) {answer : request.Answer}
    (answered : (request.carryOut registry session world).outcome = .answered answer)
    (clear : (standing.after request answer).clear) :
    (request.carryOut registry session world).session.control.interrupted = false := by
  cases request with
  | moveTo cursor => exact before clear
  | checkpoint =>
      rw [carryOut] at answered ⊢
      split at answered
      · rw [← Outcome.answered.inj answered] at clear
        exact absurd clear Bool.false_ne_true
      · rename_i unnoticed
        split at answered
        · simp at answered
        · rename_i notPaused
          rw [if_neg unnoticed, if_neg notPaused]
          exact Session.not_interrupted_of_notice (Bool.eq_false_iff.mpr unnoticed)
  | _ => exact absurd clear Bool.false_ne_true

theorem Wait.resume_clear {session : Session} (world : World ω) {request : Request}
    (wait : Wait ω request) {standing : Standing} {answer : request.Answer}
    (answered : (wait.resume session world).outcome = .answered answer)
    (clear : (standing.after request answer).clear) :
    (wait.resume session world).session.control.interrupted = false := by
  cases wait with
  | checkpoint =>
      have unnoticed : (session.mapControl Control.wake).notice.2 = false := by
        have goesOn : answer = true := clear
        simpa [resume, goesOn] using answered
      exact Session.not_interrupted_of_notice unnoticed
  | _ => exact absurd clear Bool.false_ne_true

/-- What is asked and answered leaves the standing of a run true. -/
theorem Request.carryOut_shows (registry : Registry ω) {session : Session} (world : World ω)
    {request : Request} (ordinary : request.isOrdinary) {standing : Standing}
    (shows : session.Shows standing) {answer : request.Answer}
    (answered : (request.carryOut registry session world).outcome = .answered answer) :
    (request.carryOut registry session world).session.Shows (standing.after request answer) where
  results :=
    (carryOut_onward registry session world ordinary).results.trans
      (Session.published_shows shows answer)
  clear := carryOut_clear registry world shows.clear answered

/-- A wait that ends with an answer leaves the standing of a run true. -/
theorem Wait.resume_shows {session : Session} (world : World ω) {request : Request}
    (wait : Wait ω request) {standing : Standing} (shows : session.Shows standing)
    {answer : request.Answer} (answered : (wait.resume session world).outcome = .answered answer) :
    (wait.resume session world).session.Shows (standing.after request answer) where
  results := by
    have same := (wait.resume_onward session world).results.trans shows.results
    cases wait <;> exact same
  clear := wait.resume_clear world answered

/-- What is known after a wait does not depend on what was known before. -/
theorem Wait.after_unclear {request : Request} (wait : Wait ω request) (standing : Standing)
    (answer : request.Answer) :
    standing.unclear.after request answer = standing.after request answer := by
  cases wait <;> rfl

/-! ## Runs -/

/-! ### Tasks that keep to the conduct of runs -/

/-- A task that keeps to the conduct of runs from where it stands. -/
def Stage.Obeys (good : List ElementResult → Prop) (condition : α → Standing → Prop)
    (standing : Standing) : Stage ω α → Prop
  | .ready program => program.Obeys (conduct good) standing condition
  | @Stage.waiting _ _ request _ next =>
      standing.ended = none ∧
        ∀ answer, (next answer).Obeys (conduct good) (standing.after request answer) condition
  | .done value => condition value standing

/-- What holds of a session as long as a run is under way, and what once the run has ended its job
with a status. -/
structure RunLaw (ω : Type) (good : List ElementResult → Prop) (during : Session → Prop)
    (isOver : JobStatus → Session → Prop) : Prop where
  onward {before after : Session} (holds : during before) (onward : before.Onward after) :
    during after
  publish {session : Session} (holds : during session) (results : List ElementResult) :
    during { session with result := { session.result with results } }
  endJob (registry : Registry ω) {session : Session} (world : World ω) {ending : Ending}
    (holds : during session) (complete : ending = .completed → good session.result.results) :
    let carried := (Request.endJob ending).carryOut registry session world
    ∀ status, carried.outcome = .answered status → isOver status carried.session

section Follows

variable (good : List ElementResult → Prop) (condition : α → Standing → Prop)
  (during : Session → Prop) (isOver : JobStatus → Session → Prop)

/-- A session that is what the standing of a run takes it for. -/
structure Session.Matches (session : Session) (standing : Standing) : Prop where
  underWay : standing.ended = none → session.Shows standing ∧ during session
  isOver : ∀ status, standing.ended = some status → isOver status session

/-- A program that keeps to the conduct of runs in a session that it takes for what it is. -/
def Program.Follows (session : Session) (program : Program α) : Prop :=
  ∃ standing, program.Obeys (conduct good) standing condition ∧
    session.Matches during isOver standing

/-- A task that keeps to the conduct of runs in a session that it takes for what it is, and that may
have been interrupted meanwhile. -/
def Stage.Follows (session : Session) (stage : Stage ω α) : Prop :=
  ∃ standing : Standing, standing.clear = false ∧ stage.Obeys good condition standing ∧
    session.Matches during isOver standing

end Follows

/-- A resting task goes on following a session of which it still holds what it relies on. -/
theorem Stage.Follows.transfer {during otherDuring : Session → Prop}
    {isOver otherOver : JobStatus → Session → Prop} {before after : Session} {stage : Stage ω α}
    (follows : stage.Follows good condition during isOver before)
    (sameResults : after.result.results = before.result.results)
    (holds : during before → otherDuring after)
    (overHolds : ∀ status, isOver status before → otherOver status after) :
    stage.Follows good condition otherDuring otherOver after := by
  rcases follows with ⟨standing, unclear, obeys, matched⟩
  refine ⟨standing, unclear, obeys, fun underWay => ?_, fun status ended => ?_⟩
  · rcases matched.underWay underWay with ⟨shows, holdsBefore⟩
    refine ⟨⟨sameResults.trans shows.results, fun clear => ?_⟩, holds holdsBefore⟩
    simp [unclear] at clear
  · exact overHolds status (matched.isOver status ended)

namespace RunLaw

variable {during : Session → Prop} {isOver : JobStatus → Session → Prop}

theorem published (law : RunLaw ω good during isOver) {session : Session} (holds : during session)
    (request : Request) : during (session.published request) := by
  cases request with
  | publish results => exact law.publish holds results
  | _ => exact holds

/-- A request that neither begins nor ends the job leaves its program following the session. -/
theorem keeps_follows {standing : Standing} {request : Request} {carried : Carried ω request}
    {next : request.Answer → Program α}
    (obeys : ∀ answer, (next answer).Obeys (conduct good) (standing.after request answer) condition)
    (underWay : standing.ended = none)
    (stillUnderWay : ∀ answer, (standing.after request answer).ended = none)
    (holds : during carried.session)
    (answered : ∀ answer, carried.outcome = .answered answer →
      carried.session.Shows (standing.after request answer))
    (waiting : ∀ wait, carried.outcome = .waiting wait → carried.session.Shows standing.unclear) :
    carried.Keeps (Stage.Follows good condition during isOver)
      (Program.Follows good condition during isOver) next := by
  rw [Carried.Keeps]
  cases outcome : carried.outcome with
  | answered answer =>
      refine ⟨_, obeys answer, fun _ => ⟨answered answer outcome, holds⟩, fun status ended => ?_⟩
      simp [stillUnderWay answer] at ended
  | waiting wait =>
      refine ⟨standing.unclear, rfl, ⟨underWay, fun answer => ?_⟩, fun _ => ?_,
        fun status ended => ?_⟩
      · rw [wait.after_unclear]
        exact obeys answer
      · exact ⟨waiting wait outcome, holds⟩
      · simp [Standing.unclear, underWay] at ended

/-- A run never calls a capability once it is interrupted, and it begins no job. -/
theorem pollLaw (law : RunLaw ω good during isOver) (registry : Registry ω)
    (settled : ∀ value standing, condition value standing → condition value standing.unclear) :
    PollLaw registry (Stage.Follows good condition during isOver)
      (Program.Follows good condition during isOver) fun request interrupted =>
        request ≠ .beginJob ∧ (interrupted → ¬request.isCall) where
  start := by
    rintro session program ⟨standing, -, obeys, matched⟩
    exact ⟨standing, obeys, matched⟩
  finish := by
    rintro session value ⟨standing, obeys, matched⟩
    refine ⟨standing.unclear, rfl, settled value standing obeys, fun underWay => ?_, matched.isOver⟩
    exact (matched.underWay underWay).imp Session.Shows.unclear id
  ask := by
    rintro session world request next ⟨standing, ⟨⟨underWay, allowed⟩, obeys⟩, matched⟩
    rcases matched.underWay underWay with ⟨shows, holds⟩
    refine ⟨⟨?_, ?_⟩, ?_⟩
    · rintro rfl
      exact allowed
    · intro interrupted isCall
      -- A call is allowed only to a run that is clear, and its session shows that such a run is not
      -- interrupted.
      have clear : standing.clear := by
        cases request <;> simp_all [Request.isCall]
      simp [shows.clear clear] at interrupted
    · by_cases ordinary : request.isOrdinary
      · have onward := request.carryOut_onward registry session world ordinary
        have holdsAfter := law.onward (law.published holds request) onward
        refine keeps_follows obeys underWay (fun answer => ?_) holdsAfter (fun answer => ?_)
          fun wait _ => ?_
        · cases request <;> simp_all [Standing.after, Request.isOrdinary]
        · exact request.carryOut_shows registry world ordinary shows
        · refine ⟨?_, fun clear => absurd clear Bool.false_ne_true⟩
          cases wait <;> exact onward.results.trans shows.results
      · cases request with
        | beginJob => exact absurd allowed id
        | endJob ending =>
            have complete : ending = .completed → good session.result.results := by
              rw [shows.results]
              exact allowed
            refine ⟨_, obeys _, fun notEnded => by simp [conduct, Standing.after] at notEnded,
              fun status ended => ?_⟩
            exact law.endJob registry world holds complete status
              (congrArg Outcome.answered (Option.some.inj ended))
        | _ => exact absurd rfl ordinary
  resume := by
    rintro session world request wait next ⟨standing, -, ⟨underWay, obeys⟩, matched⟩
    rcases matched.underWay underWay with ⟨shows, holds⟩
    have onward := wait.resume_onward session world
    refine keeps_follows obeys underWay (fun answer => ?_) (law.onward holds onward)
      (fun answer => ?_)
      fun again _ => shows.onward onward
    · cases wait <;> exact underWay
    · exact wait.resume_shows world shows

end RunLaw

end TestEngine
