import TestEngine.Proofs.Machine.Dialogue
import TestEngine.Proofs.Observation.Task

/-!
# Answers of capabilities

A capability that is called answers as its activity may end. It is abandoned nowhere but before it
begins, and where it sleeps or hangs, and only by a job that has been interrupted; and the lines
that a function has logged by then are in its answer whatever became of it.
-/

namespace TestEngine

variable {ω α : Type}

/-! ### Activities -/

/-- How an activity may end, whatever it finds and whatever happens meanwhile, and what it has
logged by then: it returns, it crashes, or it is abandoned where it sleeps or hangs. -/
inductive Activity.Ends : Activity ω α → List String → Reply α → Prop
  | finish {answer : α} : Ends (.finish answer) [] (.returned answer)
  | crash : Ends .crash [] .crashed
  | hang : Ends .hang [] .abandoned
  | abandoned {duration : Nat} {next : Activity ω α} (lasts : duration ≠ 0) :
      Ends (.sleep duration next) [] .abandoned
  | sleep {duration : Nat} {next : Activity ω α} {lines : List String} {reply : Reply α}
      (ends : Ends next lines reply) : Ends (.sleep duration next) lines reply
  | log {line : String} {next : Activity ω α} {lines : List String} {reply : Reply α}
      (ends : Ends next lines reply) : Ends (.log line next) (line :: lines) reply
  | signal {sent : Signal} {next : Activity ω α} {lines : List String} {reply : Reply α}
      (ends : Ends next lines reply) : Ends (.signal sent next) lines reply
  | consult {effect : ω → ω} {next : ω → Activity ω α} {state : ω} {lines : List String}
      {reply : Reply α} (ends : Ends (next state) lines reply) :
      Ends (.consult effect next) lines reply

/-- What the call of a capability may come to: an end of the capability's activity, or the run gives
up on it before it begins. -/
def Activity.Answers (activity : Activity ω α) (lines : List String) (reply : Reply α) : Prop :=
  activity.Ends lines reply ∨ lines = [] ∧ reply = .abandoned

/-- What a run of an activity has come to, after lines that had been logged before: an end of it, or
a place where it may be abandoned and from where it goes on to an end. -/
def ActivityRun.Follows (run : ActivityRun ω α) (activity : Activity ω α) (logged : List String) :
    Prop :=
  ∃ lines, run.lines = logged ++ lines ∧
    match run.halt with
    | .returned answer => activity.Ends lines (.returned answer)
    | .crashed => activity.Ends lines .crashed
    | .suspended rest _ => activity.Ends lines .abandoned ∧
        ∀ more reply, rest.Ends more reply → activity.Ends (lines ++ more) reply

namespace ActivityRun.Follows

variable {run : ActivityRun ω α} {activity next : Activity ω α} {logged : List String}

/-- A step that logs nothing changes nothing about how a run follows. -/
theorem before (follows : run.Follows next logged)
    (ends : ∀ lines reply, next.Ends lines reply → activity.Ends lines reply) :
    run.Follows activity logged := by
  rcases follows with ⟨lines, isLines, halts⟩
  refine ⟨lines, isLines, ?_⟩
  cases halt : run.halt with
  | returned answer =>
      rw [halt] at halts
      exact ends _ _ halts
  | crashed =>
      rw [halt] at halts
      exact ends _ _ halts
  | suspended rest alarm =>
      rw [halt] at halts
      exact ⟨ends _ _ halts.1, fun more reply endsRest => ends _ _ (halts.2 more reply endsRest)⟩

theorem log {line : String} (follows : run.Follows next (logged ++ [line])) :
    run.Follows (.log line next) logged := by
  rcases follows with ⟨lines, isLines, halts⟩
  refine ⟨line :: lines, by rw [isLines, List.append_assoc, List.singleton_append], ?_⟩
  cases halt : run.halt with
  | returned answer =>
      rw [halt] at halts
      exact .log halts
  | crashed =>
      rw [halt] at halts
      exact .log halts
  | suspended rest alarm =>
      rw [halt] at halts
      exact ⟨.log halts.1, fun more reply endsRest => .log (halts.2 more reply endsRest)⟩

variable {request : Request} {abandoned : Bool} {answer : Reply α → request.Answer}
  {wait : Activity ω α → Option Alarm → Wait ω request}

theorem answered (follows : run.Follows activity logged) {value : request.Answer}
    (outcome : (run.carried abandoned answer wait).outcome = .answered value) :
    ∃ lines reply, value = answer reply ∧ run.lines = logged ++ lines ∧
      activity.Ends lines reply ∧ (reply = .abandoned → abandoned = true) := by
  rcases follows with ⟨lines, isLines, halts⟩
  cases halt : run.halt with
  | returned result =>
      simp only [ActivityRun.carried, halt] at outcome halts
      exact ⟨lines, _, (Outcome.answered.inj outcome).symm, isLines, halts, by simp⟩
  | crashed =>
      simp only [ActivityRun.carried, halt] at outcome halts
      exact ⟨lines, _, (Outcome.answered.inj outcome).symm, isLines, halts, by simp⟩
  | suspended rest alarm =>
      simp only [ActivityRun.carried, halt] at outcome halts
      split at outcome
      · rename_i isAbandoned
        obtain rfl := Outcome.answered.inj outcome
        exact ⟨lines, _, rfl, isLines, halts.1, fun _ => isAbandoned⟩
      · cases outcome

theorem waits (follows : run.Follows activity logged) {waiting : Wait ω request}
    (outcome : (run.carried abandoned answer wait).outcome = .waiting waiting) :
    ∃ lines rest alarm, waiting = wait rest alarm ∧ run.lines = logged ++ lines ∧
      activity.Ends lines .abandoned ∧
        ∀ more reply, rest.Ends more reply → activity.Ends (lines ++ more) reply := by
  rcases follows with ⟨lines, isLines, halts⟩
  cases halt : run.halt with
  | returned result => simp only [ActivityRun.carried, halt] at outcome; cases outcome
  | crashed => simp only [ActivityRun.carried, halt] at outcome; cases outcome
  | suspended rest alarm =>
      simp only [ActivityRun.carried, halt] at outcome halts
      split at outcome
      · cases outcome
      · exact ⟨lines, rest, alarm, (Outcome.waiting.inj outcome).symm, isLines, halts.1, halts.2⟩

end ActivityRun.Follows

theorem Activity.advance_follows (activity : Activity ω α) (session : Session) (world : World ω)
    (logged : List String) : (activity.advance session world logged).Follows activity logged := by
  induction activity generalizing session world logged with
  | finish answer => exact ⟨[], (List.append_nil logged).symm, .finish⟩
  | crash => exact ⟨[], (List.append_nil logged).symm, .crash⟩
  | hang => exact ⟨[], (List.append_nil logged).symm, .hang, fun _ _ ends => ends⟩
  | sleep duration next ih =>
      rw [advance]
      split
      · exact (ih session world logged).before fun _ _ => .sleep
      · rename_i lasts
        exact ⟨[], (List.append_nil logged).symm, .abandoned lasts, fun _ _ => .sleep⟩
  | log line next ih => exact (ih session world (logged ++ [line])).log
  | signal sent next ih => exact (ih (session.receive sent) world logged).before fun _ _ => .signal
  | consult effect next ih => exact (ih world.state session _ logged).before fun _ _ => .consult

/-! ### Answers of capabilities -/

/-- What the scripting capability does when it is called. -/
def Registry.execution (registry : Registry ω) (call : FunctionCall) :
    Activity ω (Except EngineError (List Property)) :=
  match registry.runner with
  | some runner => runner call
  | none => .crash

section Answers

variable {registry : Registry ω} {session last : Session} {signals : List Signal}

/-- A run gives up on a capability only if it is to abandon it. -/
theorem Session.abandons_of_heed {world : World ω} {later : Bool}
    (givesUp : ((world.heed session.abandons).2 || session.abandons && later) = true) :
    session.abandons = true := by
  rcases (Bool.or_eq_true ..).mp givesUp with heeds | abandons
  · exact World.interrupted_of_heed heeds
  · exact (Bool.and_eq_true_iff.mp abandons).1

theorem Wait.Concludes.performing {call : ActionCall}
    {activity : Activity ω (Except EngineError ActionResponse)} {alarm : Option Alarm}
    {reply : Reply (Except EngineError ActionResponse)}
    (concludes : (Wait.performing activity alarm : Wait ω (.perform call)).Concludes session signals
      reply last) :
    ((∃ lines, activity.Ends lines reply) ∨ reply = .abandoned) ∧
      (reply = .abandoned → last.abandons = true) := by
  generalize isWait : (Wait.performing activity alarm : Wait ω (.perform call)) = wait at concludes
  induction concludes generalizing activity alarm with
  | @answered wait session signals world reply awake answered =>
      subst isWait
      simp only [Wait.resume] at answered ⊢
      split at answered
      · rename_i givesUp
        rw [if_pos givesUp]
        exact ⟨.inr (Outcome.answered.inj answered).symm, fun _ =>
          Session.abandons_of_heed givesUp⟩
      · rename_i goesOn
        rw [if_neg goesOn, ActivityRun.session_carried]
        have follows := activity.advance_follows (session.after signals)
          (world.heed (session.after signals).abandons).1 []
        rcases follows.answered answered with ⟨lines, given, isReply, -, ends, isAbandoned⟩
        obtain rfl : reply = given := isReply
        exact ⟨.inl ⟨lines, ends⟩, isAbandoned⟩
  | @again wait next session last signals later world reply awake waits _ ih =>
      subst isWait
      simp only [Wait.resume] at waits
      split at waits
      · cases waits
      · have follows := activity.advance_follows (session.after signals)
          (world.heed (session.after signals).abandons).1 []
        rcases follows.waits waits with ⟨lines, rest, alarm, rfl, -, endsHere, goesOn⟩
        rcases ih rfl with ⟨⟨more, ends⟩ | rfl, isAbandoned⟩
        · exact ⟨.inl ⟨_, goesOn _ _ ends⟩, isAbandoned⟩
        · exact ⟨.inl ⟨_, endsHere⟩, isAbandoned⟩

theorem Wait.Concludes.executing {call : FunctionCall}
    {activity : Activity ω (Except EngineError (List Property))} {alarm : Option Alarm}
    {logged : List String} {answer : (Request.execute call).Answer}
    (concludes : (Wait.executing activity alarm logged : Wait ω (.execute call)).Concludes session
      signals answer last) :
    ∃ lines, answer.1 = logged ++ lines ∧
      activity.Answers lines answer.2 ∧ (answer.2 = .abandoned → last.abandons = true) := by
  generalize isWait : (Wait.executing activity alarm logged : Wait ω (.execute call)) = wait
    at concludes
  induction concludes generalizing activity alarm logged with
  | @answered wait session signals world answer awake answered =>
      subst isWait
      simp only [Wait.resume] at answered ⊢
      split at answered
      · rename_i givesUp
        obtain rfl := Outcome.answered.inj answered
        rw [if_pos givesUp]
        exact ⟨[], (List.append_nil logged).symm, .inr ⟨rfl, rfl⟩, fun _ =>
          Session.abandons_of_heed givesUp⟩
      · rename_i goesOn
        rw [if_neg goesOn, ActivityRun.session_carried]
        have follows := activity.advance_follows (session.after signals)
          (world.heed (session.after signals).abandons).1 logged
        rcases follows.answered answered with ⟨lines, reply, rfl, isLines, ends, isAbandoned⟩
        exact ⟨lines, isLines, .inl ends, isAbandoned⟩
  | @again wait next session last signals later world answer awake waits _ ih =>
      subst isWait
      simp only [Wait.resume] at waits
      split at waits
      · cases waits
      · have follows := activity.advance_follows (session.after signals)
          (world.heed (session.after signals).abandons).1 logged
        rcases follows.waits waits with ⟨lines, rest, alarm, rfl, isLines, endsHere, goesOn⟩
        rcases ih rfl with ⟨more, sameLines, ends, isAbandoned⟩
        refine ⟨lines ++ more, ?_, ?_, isAbandoned⟩
        · rw [sameLines, isLines, List.append_assoc]
        · rcases ends with ends | ⟨rfl, abandoned⟩
          · exact .inl (goesOn _ _ ends)
          · rw [List.append_nil, abandoned]
            exact .inl endsHere

theorem Request.carryOut_perform (registry : Registry ω) (session : Session) (world : World ω)
    (call : ActionCall) :
    (Request.perform call).carryOut registry session world =
      let heeded := world.heed session.abandons
      let run := (registry.activity call).advance session heeded.1 []
      if heeded.2 then ⟨session, heeded.1, .answered .abandoned⟩
      else run.carried run.session.abandons id .performing := rfl

theorem Request.carryOut_execute (registry : Registry ω) (session : Session) (world : World ω)
    (call : FunctionCall) :
    (Request.execute call).carryOut registry session world =
      let heeded := world.heed session.abandons
      let run := (registry.execution call).advance session heeded.1 []
      if heeded.2 then ⟨session, heeded.1, .answered ([], .abandoned)⟩
      else run.carried run.session.abandons (fun reply => (run.lines, reply)) fun activity alarm =>
        .executing activity alarm run.lines := rfl

/-- A backend answers as its activity may end, and is abandoned only by an interrupted job. -/
theorem Request.Gets.perform {call : ActionCall} {reply : Reply (Except EngineError ActionResponse)}
    (gets : (Request.perform call).Gets registry session signals reply last) :
    (∃ lines, (registry.activity call).Answers lines reply) ∧
      (reply = .abandoned → last.abandons = true) := by
  rcases gets with ⟨before, later, world, rfl, outcome⟩
  simp only [carryOut_perform] at outcome
  split at outcome
  · rename_i heeds
    rcases outcome with ⟨answered, -, rfl⟩ | ⟨wait, waits, -⟩
    · exact ⟨⟨[], .inr ⟨rfl, (Outcome.answered.inj answered).symm⟩⟩, fun _ =>
        World.interrupted_of_heed heeds⟩
    · cases waits
  · have follows := (registry.activity call).advance_follows (session.after before)
      (world.heed (session.after before).abandons).1 []
    rcases outcome with ⟨answered, -, rfl⟩ | ⟨wait, waits, concludes⟩
    · rcases follows.answered answered with ⟨lines, given, isReply, -, ends, isAbandoned⟩
      obtain rfl : reply = given := isReply
      refine ⟨⟨lines, .inl ends⟩, fun abandoned => ?_⟩
      rw [ActivityRun.session_carried]
      exact isAbandoned abandoned
    · rcases follows.waits waits with ⟨lines, rest, alarm, rfl, -, endsHere, goesOn⟩
      rcases concludes.performing with ⟨⟨more, ends⟩ | rfl, isAbandoned⟩
      · exact ⟨⟨_, .inl (goesOn _ _ ends)⟩, isAbandoned⟩
      · exact ⟨⟨_, .inl endsHere⟩, isAbandoned⟩

/-- A function answers as its activity may end, and with all the lines that this has logged. -/
theorem Request.Gets.execute {call : FunctionCall} {answer : (Request.execute call).Answer}
    (gets : (Request.execute call).Gets registry session signals answer last) :
    (registry.execution call).Answers answer.1 answer.2 ∧
      (answer.2 = .abandoned → last.abandons = true) := by
  rcases gets with ⟨before, later, world, rfl, outcome⟩
  simp only [carryOut_execute] at outcome
  split at outcome
  · rename_i heeds
    rcases outcome with ⟨answered, -, rfl⟩ | ⟨wait, waits, -⟩
    · obtain rfl := Outcome.answered.inj answered
      exact ⟨.inr ⟨rfl, rfl⟩, fun _ => World.interrupted_of_heed heeds⟩
    · cases waits
  · have follows := (registry.execution call).advance_follows (session.after before)
      (world.heed (session.after before).abandons).1 []
    rcases outcome with ⟨answered, -, rfl⟩ | ⟨wait, waits, concludes⟩
    · rcases follows.answered answered with ⟨lines, reply, rfl, isLines, ends, isAbandoned⟩
      rw [List.nil_append] at isLines
      rw [ActivityRun.session_carried, isLines]
      exact ⟨.inl ends, isAbandoned⟩
    · rcases follows.waits waits with ⟨lines, rest, alarm, rfl, isLines, endsHere, goesOn⟩
      rcases concludes.executing with ⟨more, sameLines, ends, isAbandoned⟩
      rw [isLines, List.nil_append] at sameLines
      refine ⟨.inl ?_, isAbandoned⟩
      rw [sameLines]
      rcases ends with ends | ⟨rfl, abandoned⟩
      · exact goesOn _ _ ends
      · rw [List.append_nil, abandoned]
        exact endsHere

end Answers

end TestEngine
