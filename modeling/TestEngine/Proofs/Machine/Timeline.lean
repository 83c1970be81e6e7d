import TestEngine.Proofs.Exchange
import TestEngine.Proofs.Machine.Course

/-!
# Timelines

A history of exchanges takes place between two moments. Each request of it is carried out when it is
made; if it has to wait, the task rests until the wait is over, and meanwhile clients do something
to its session, the clock goes on and everything else may change. A `Timeline` is a history that can
have come about in this way, with a note of what occurred during each exchange. Whatever a machine
does around a task, what the task goes through has a timeline.
-/

namespace TestEngine

variable {ω α : Type}

/-- What a session and the world are like at some time. -/
structure Moment (ω : Type) where
  session : Session
  world : World ω

/-! ### What comes to pass during a wait -/

/-- What can be done from outside to the control of a session. -/
inductive Occurrence where
  | signal (signal : Signal)
  | reject (now : Calendar.Instant)

def Occurrence.act : Occurrence → Session → Session
  | .signal sent, session => session.mapControl sent.act
  | .reject now, session => session.reject now

/-- What comes to pass between two moments while the task of a session rests. Apart from what occurs
to the control, everything may change. -/
inductive Moment.Rests (first : Moment ω) : List Occurrence → Moment ω → Prop
  | still : Rests first [] first
  | occurs {occurrences : List Occurrence} {last : Moment ω}
      (rests : Rests first occurrences last) (occurrence : Occurrence) :
      Rests first (occurrences ++ [occurrence]) ⟨occurrence.act last.session, last.world⟩
  | aside {occurrences : List Occurrence} {last : Moment ω} {session : Session}
      (rests : Rests first occurrences last) (same : session.control = last.session.control)
      (world : World ω) : Rests first occurrences ⟨session, world⟩

namespace Moment.Rests

variable {first middle last : Moment ω} {occurrences later : List Occurrence}

theorem of_control_eq {session other : Session} (world otherWorld : World ω)
    (same : other.control = session.control) :
    (⟨session, world⟩ : Moment ω).Rests [] ⟨other, otherWorld⟩ :=
  aside still same otherWorld

theorem trans (rests : first.Rests occurrences middle) (goesOn : middle.Rests later last) :
    first.Rests (occurrences ++ later) last := by
  induction goesOn with
  | still => simpa using rests
  | occurs _ occurrence ih =>
      rw [← List.append_assoc]
      exact ih.occurs occurrence
  | aside _ same world ih => exact ih.aside same world

/-- Nobody but who is outside changes the control of a session whose task rests. -/
theorem control_eq (rests : first.Rests [] last) :
    last.session.control = first.session.control := by
  generalize nothing : ([] : List Occurrence) = occurrences at rests
  induction rests with
  | still => rfl
  | occurs _ occurrence _ => simp at nothing
  | aside _ same _ ih => exact same.trans (ih nothing)

end Moment.Rests

/-! ### Exchanges in time -/

/-- The moment that is left when a request was carried out as far as it goes without waiting. -/
def Carried.moment {request : Request} (carried : Carried ω request) : Moment ω :=
  ⟨carried.session, carried.world⟩

/-- How a wait that begins at a moment ends: the task rests until it is awake, and is resumed. -/
inductive Wait.Ends {request : Request} :
    Wait ω request → Moment ω → List Occurrence → request.Answer → Moment ω → Prop
  | answered {wait : Wait ω request} {first reached : Moment ω} {occurrences : List Occurrence}
      {answer : request.Answer} (rests : first.Rests occurrences reached)
      (awake : wait.isAwake reached.session reached.world = true)
      (answered : (wait.resume reached.session reached.world).outcome = .answered answer) :
      Ends wait first occurrences answer (wait.resume reached.session reached.world).moment
  | again {wait next : Wait ω request} {first reached last : Moment ω}
      {occurrences later : List Occurrence} {answer : request.Answer}
      (rests : first.Rests occurrences reached)
      (awake : wait.isAwake reached.session reached.world = true)
      (waits : (wait.resume reached.session reached.world).outcome = .waiting next)
      (ends : Ends next (wait.resume reached.session reached.world).moment later answer last) :
      Ends wait first (occurrences ++ later) answer last

theorem Wait.Ends.of_rests {request : Request} {wait : Wait ω request}
    {first middle last : Moment ω} {occurrences later : List Occurrence} {answer : request.Answer}
    (rests : first.Rests occurrences middle) (ends : wait.Ends middle later answer last) :
    wait.Ends first (occurrences ++ later) answer last := by
  cases ends with
  | answered goesOn awake answered => exact .answered (rests.trans goesOn) awake answered
  | again goesOn awake waits ends =>
      rw [← List.append_assoc]
      exact .again (rests.trans goesOn) awake waits ends

/-- The wait is over when the task has rested for a while; being resumed, it has its answer or waits
again. -/
theorem Wait.Ends.begins {request : Request} {wait : Wait ω request} {first last : Moment ω}
    {occurrences : List Occurrence} {answer : request.Answer}
    (ends : wait.Ends first occurrences answer last) :
    ∃ earlier later reached, occurrences = earlier ++ later ∧ first.Rests earlier reached ∧
      wait.isAwake reached.session reached.world = true ∧
      (((wait.resume reached.session reached.world).outcome = .answered answer ∧ later = [] ∧
          last = (wait.resume reached.session reached.world).moment) ∨
        ∃ next, (wait.resume reached.session reached.world).outcome = .waiting next) := by
  cases ends with
  | answered rests awake answered =>
      exact ⟨_, [], _, by simp, rests, awake, .inl ⟨answered, rfl, rfl⟩⟩
  | again rests awake waits ends => exact ⟨_, _, _, rfl, rests, awake, .inr ⟨_, waits⟩⟩

/-- How a request that is made at a moment gets its answer: at once, or when its wait ends. -/
def Request.Settles (request : Request) (first : Moment ω) (occurrences : List Occurrence)
    (answer : request.Answer) (last : Moment ω) : Prop :=
  ∃ registry : Registry ω, let carried := request.carryOut registry first.session first.world
    (carried.outcome = .answered answer ∧ occurrences = [] ∧ last = carried.moment) ∨
      ∃ wait, carried.outcome = .waiting wait ∧ wait.Ends carried.moment occurrences answer last

/-- A history that takes place between two moments. No time passes between its exchanges. -/
inductive Timeline : Moment ω → List (Exchange (List Occurrence)) → Moment ω → Prop
  | nil {moment : Moment ω} : Timeline moment [] moment
  | cons {first middle last : Moment ω} {request : Request} {answer : request.Answer}
      {occurrences : List Occurrence} {history : List (Exchange (List Occurrence))}
      (settles : request.Settles first occurrences answer middle)
      (rest : Timeline middle history last) :
      Timeline first (⟨request, answer, occurrences⟩ :: history) last

namespace Timeline

variable {first middle last : Moment ω} {history earlier later : List (Exchange (List Occurrence))}

@[simp]
theorem nil_iff : Timeline first [] last ↔ last = first := by
  constructor
  · rintro ⟨⟩
    rfl
  · rintro rfl
    exact nil

theorem cons_iff {request : Request} {answer : request.Answer} {occurrences : List Occurrence} :
    Timeline first (⟨request, answer, occurrences⟩ :: history) last ↔
      ∃ middle, request.Settles first occurrences answer middle ∧ Timeline middle history last := by
  constructor
  · rintro (_ | ⟨settles, rest⟩)
    exact ⟨_, settles, rest⟩
  · rintro ⟨middle, settles, rest⟩
    exact .cons settles rest

/-- An exchange without a wait. -/
theorem atOnce (registry : Registry ω) {request : Request} {answer : request.Answer}
    (answered : (request.carryOut registry first.session first.world).outcome = .answered answer)
    (rest : Timeline (request.carryOut registry first.session first.world).moment history last) :
    Timeline first (⟨request, answer, []⟩ :: history) last :=
  .cons ⟨registry, .inl ⟨answered, rfl, rfl⟩⟩ rest

theorem single_iff {request : Request} {answer : request.Answer} {occurrences : List Occurrence} :
    Timeline first [⟨request, answer, occurrences⟩] last ↔
      request.Settles first occurrences answer last := by
  simp [cons_iff]

theorem append_iff :
    Timeline first (earlier ++ later) last ↔
      ∃ middle, Timeline first earlier middle ∧ Timeline middle later last := by
  induction earlier generalizing first with
  | nil => simp
  | cons exchange earlier ih =>
      constructor
      · rintro (_ | ⟨settles, rest⟩)
        rcases ih.mp rest with ⟨middle, before, after⟩
        exact ⟨middle, .cons settles before, after⟩
      · rintro ⟨middle, _ | ⟨settles, before⟩, after⟩
        exact .cons settles (ih.mpr ⟨middle, before, after⟩)

end Timeline

/-! ### Single requests -/

namespace Request.Settles

variable {first last : Moment ω} {occurrences : List Occurrence}

/-- The clock is read without waiting. -/
theorem elapsed {reading : Nat} (settles : Request.elapsed.Settles first occurrences reading last) :
    reading = first.world.clock ∧ last = first := by
  rcases settles with ⟨registry, ⟨answered, -, rfl⟩ | ⟨wait, waits, -⟩⟩
  · exact ⟨(Outcome.answered.inj answered).symm, rfl⟩
  · exact nomatch waits

/-- A checkpoint turns back only runs that are interrupted. -/
theorem interrupted_of_checkpoint
    (settles : Request.checkpoint.Settles first occurrences false last) :
    last.session.control.interrupted = true := by
  have noticed {session : Session} (told : session.notice.2 = true) :
      session.notice.1.control.interrupted = true :=
    (Session.Onward.notice session).control.interrupted told
  rcases settles with ⟨registry, ⟨answered, -, rfl⟩ | ⟨wait, waits, ends⟩⟩
  · simp only [carryOut] at answered ⊢
    split at answered
    · rename_i told
      rw [if_pos told]
      exact noticed told
    · split at answered
      · cases answered
      · cases answered
  · rcases ends.begins with ⟨_, _, reached, -, -, -, ⟨answered, -, rfl⟩ | ⟨next, again⟩⟩
    · cases wait
      exact noticed (by simpa [Wait.resume] using answered)
    · cases wait
      cases again

/-- A sleep is shorter than it was asked for only if the run had been interrupted before, or
something occurs to its control. -/
theorem sleep {duration : Nat}
    (settles : (Request.sleep duration).Settles first occurrences () last) :
    first.world.clock + duration ≤ last.world.clock ∨
      first.session.control.interrupted = true ∨ occurrences ≠ [] := by
  rcases settles with ⟨registry, ⟨answered, -, rfl⟩ | ⟨wait, waits, ends⟩⟩
  · simp only [carryOut] at answered ⊢
    split at answered
    · rename_i atOnce
      rw [if_pos atOnce]
      rcases (Bool.or_eq_true _ _).mp atOnce with isZero | interrupted
      · obtain rfl : duration = 0 := of_decide_eq_true isZero
        exact .inl (Nat.le_refl _)
      · exact .inr (.inl interrupted)
    · cases answered
  · by_cases nothing : occurrences = []
    · simp only [carryOut] at waits ends
      split at waits
      · cases waits
      · rename_i sleeps
        rw [if_neg sleeps] at ends
        obtain rfl := Outcome.waiting.inj waits
        rcases ends.begins with ⟨earlier, later, reached, split, rests, awake, resumed⟩
        obtain ⟨rfl, rfl⟩ := List.append_eq_nil_iff.mp (split.symm.trans nothing)
        -- Nothing has woken the task but its alarm.
        have sameControl : reached.session.control = first.session.control := rests.control_eq
        have stillRuns : first.session.control.interrupted = false := by simp_all
        rw [Wait.isAwake, sameControl, stillRuns, bne_self_eq_false, Bool.or_false,
          Bool.or_false] at awake
        have due : first.world.clock + duration ≤ reached.world.clock := of_decide_eq_true awake
        rcases resumed with ⟨-, -, rfl⟩ | ⟨next, again⟩
        · exact .inl due
        · cases again
    · exact .inr (.inr nothing)

end Request.Settles

/-! ### What a machine does -/

/-- What a task has still to do; a request that it waits for is one of its requests yet. -/
def Stage.remaining : Stage ω α → Program α
  | ready program => program
  | @waiting _ _ request _ next => .ask request next
  | done value => .done value

/-- A program that comes to be at another one by the exchanges of a history. -/
inductive Program.Leads {ν : Type} : Program α → List (Exchange ν) → Program α → Prop
  | here {program : Program α} : Leads program [] program
  | ask {request : Request} {next : request.Answer → Program α} {rest : Program α}
      {answer : request.Answer} {note : ν} {history : List (Exchange ν)}
      (leads : (next answer).Leads history rest) :
      Leads (.ask request next) (⟨request, answer, note⟩ :: history) rest

namespace Program.Leads

variable {ν : Type} {program : Program α} {history : List (Exchange ν)}

theorem snoc {request : Request} {next : request.Answer → Program α}
    (leads : program.Leads history (.ask request next)) (answer : request.Answer) (note : ν) :
    program.Leads (history ++ [⟨request, answer, note⟩]) (next answer) := by
  generalize isAsk : Program.ask request next = asked at leads
  induction leads with
  | here =>
      subst isAsk
      exact .ask .here
  | ask _ ih => exact .ask (ih isAsk)

theorem yields {value : α} (leads : program.Leads history (.done value)) :
    program.Yields history value := by
  generalize isDone : Program.done value = done at leads
  induction leads with
  | here =>
      subst isDone
      exact .done
  | ask _ ih => exact .ask (ih isDone)

end Program.Leads

/-- What a task has gone through at a moment, since its program began at another one. -/
inductive Stage.Records (program : Program α) (first now : Moment ω) : Stage ω α → Prop
  | waiting {history : List (Exchange (List Occurrence))} {asked : Moment ω} {request : Request}
      {wait : Wait ω request} {next : request.Answer → Program α}
      (timeline : Timeline first history asked) (leads : program.Leads history (.ask request next))
      (pending : ∀ later answer last, wait.Ends now later answer last →
        ∃ earlier, request.Settles asked (earlier ++ later) answer last) :
      Records program first now (.waiting wait next)
  | done {history : List (Exchange (List Occurrence))} {value : α} {last : Moment ω}
      (timeline : Timeline first history last) (leads : program.Leads history (.done value)) :
      Records program first now (.done value)

namespace Stage.Records

variable {program : Program α} {first now later : Moment ω} {stage : Stage ω α}

/-- Resting adds to what is pending. -/
theorem rests (records : stage.Records program first now) {occurrences : List Occurrence}
    (rests : now.Rests occurrences later) : stage.Records program first later := by
  cases records with
  | waiting timeline leads pending =>
      refine .waiting timeline leads fun after answer last ends => ?_
      rcases pending _ answer last (ends.of_rests rests) with ⟨earlier, settles⟩
      exact ⟨earlier ++ occurrences, by rwa [List.append_assoc]⟩
  | done timeline leads => exact .done timeline leads

end Stage.Records

/-- A program that is carried out as far as it goes records what it goes through meanwhile. -/
theorem Program.advance_records (registry : Registry ω) {program rest : Program α}
    {first now : Moment ω} {history : List (Exchange (List Occurrence))}
    (timeline : Timeline first history now) (leads : program.Leads history rest) :
    let after := rest.advance registry now.session now.world
    after.stage.Records program first ⟨after.session, after.world⟩ := by
  induction rest generalizing now history with
  | done value => exact .done timeline leads
  | ask request next ih =>
      simp only [advance]
      cases outcome : (request.carryOut registry now.session now.world).outcome with
      | waiting wait =>
          exact .waiting timeline leads fun later answer last ends =>
            ⟨[], registry, .inr ⟨wait, outcome, ends⟩⟩
      | answered answer =>
          have settles : request.Settles now [] answer
              (request.carryOut registry now.session now.world).moment :=
            ⟨registry, .inl ⟨outcome, rfl, rfl⟩⟩
          exact ih answer (Timeline.append_iff.mpr ⟨now, timeline, Timeline.single_iff.mpr settles⟩)
            (leads.snoc answer [])

theorem Stage.Records.poll {program : Program α} {first now : Moment ω} {stage : Stage ω α}
    (records : stage.Records program first now) (registry : Registry ω) :
    let after := stage.poll registry now.session now.world
    after.stage.Records program first ⟨after.session, after.world⟩ := by
  cases records with
  | done timeline leads => exact .done timeline leads
  | @waiting history asked request wait next timeline leads pending =>
      simp only [Stage.poll]
      split
      · rename_i awake
        cases outcome : (wait.resume now.session now.world).outcome with
        | waiting again =>
            refine .waiting timeline leads fun later answer last ends => ?_
            exact pending _ answer last (.again .still awake outcome ends)
        | answered answer =>
            rcases pending _ answer _ (.answered .still awake outcome) with ⟨earlier, settles⟩
            exact Program.advance_records registry
              (Timeline.append_iff.mpr ⟨asked, timeline, Timeline.single_iff.mpr settles⟩)
              (leads.snoc answer _)
      · exact .waiting timeline leads pending

/-- What has become of a task that works alone on its session since its program was spawned. -/
def Machine.Recorded (place call : Nat) (program : Program α) (machine : Machine ω α) : Prop :=
  ∃ session stage,
    machine.view place = ⟨some session, Function.update (fun _ => none) call (some stage)⟩ ∧
      (stage = .ready program ∨ ∃ first, stage.Records program first ⟨session, machine.world⟩)

namespace Machine

variable {place call : Nat} {program : Program α} {machine : Machine ω α}

theorem world_poll {session : Session} {stage : Stage ω α}
    (hasSession : (machine.view place).session = some session)
    (hasStage : (machine.view place).stages call = some stage) :
    (machine.poll call).world = (stage.poll machine.registry session machine.world).world := by
  rcases view_stages_eq_some.mp hasStage with ⟨task, hasTask, rfl, rfl⟩
  simp only [poll, hasTask, session_eq hasSession]

/-- A step between two polls is one of rest. -/
theorem Recorded.rests (recorded : machine.Recorded place call program) {other : Machine ω α}
    {change : Session → Session} {occurrences : List Occurrence}
    (changes : other.view place =
      ⟨(machine.view place).session.map change, (machine.view place).stages⟩)
    (rests : ∀ session, (⟨session, machine.world⟩ : Moment ω).Rests occurrences
      ⟨change session, other.world⟩) : other.Recorded place call program := by
  rcases recorded with ⟨session, stage, view, began⟩
  rw [view] at changes
  refine ⟨change session, stage, changes, began.imp_right ?_⟩
  rintro ⟨first, records⟩
  exact ⟨first, records.rests (rests session)⟩

theorem Recorded.poll (recorded : machine.Recorded place call program) {other : Nat}
    {stage : Stage ω α} (hasStage : (machine.view place).stages other = some stage) :
    (machine.poll other).Recorded place call program := by
  rcases recorded with ⟨session, stage, view, began⟩
  obtain rfl : other = call := by
    by_contra otherNe
    simp [view, otherNe] at hasStage
  have hasSession : (machine.view place).session = some session := by rw [view]
  have hasStage : (machine.view place).stages other = some stage := by simp [view]
  have polled := view_poll hasSession hasStage
  simp only [view, Function.update_idem] at polled
  refine ⟨_, _, polled, .inr ?_⟩
  rw [world_poll hasSession hasStage]
  rcases began with rfl | ⟨first, records⟩
  · exact ⟨⟨session, machine.world⟩, Program.advance_records machine.registry .nil .here⟩
  · exact ⟨first, records.poll machine.registry⟩

theorem Course.recorded {mayReject : Session → Prop} {first last : Machine ω α}
    {trace : List Asked} {session : Session}
    (course : Course place (fun _ => False) mayReject first trace last)
    (begins : first.view place =
      ⟨some session, Function.update (fun _ => none) call (some (.ready program))⟩) :
    last.Recorded place call program := by
  induction course with
  | start => exact ⟨session, _, begins, .inl rfl⟩
  | step _ step ih =>
      cases step with
      | poll hasStage => exact ih.poll hasStage
      | spawn job => exact job.elim
      | signal sent => exact ih.rests (view_modifySession _) fun _ => .occurs .still (.signal sent)
      | listen listener => exact ih.rests (view_modifySession _) fun _ => .of_control_eq _ _ rfl
      | forget listener => exact ih.rests (view_modifySession _) fun _ => .of_control_eq _ _ rfl
      | reject hasSession may now =>
          exact ih.rests (view_modifySession _) fun _ => .occurs .still (.reject now)
      | elsewhere same =>
          exact @Recorded.rests _ _ _ _ _ _ ih _ id _ (same.trans (by simp))
            fun _ => .of_control_eq _ _ rfl

/-- Whatever happens around a task, its program comes to what it has still to do by a history that
has a timeline. -/
theorem Course.exists_timeline {mayReject : Session → Prop} {first last : Machine ω α}
    {trace : List Asked} {session : Session} {stage : Stage ω α}
    (course : Course place (fun _ => False) mayReject first trace last)
    (begins : first.view place =
      ⟨some session, Function.update (fun _ => none) call (some (.ready program))⟩)
    (hasStage : (last.view place).stages call = some stage) :
    ∃ (start : Moment ω) (history : List (Exchange (List Occurrence))) (stop : Moment ω),
      Timeline start history stop ∧ program.Leads history stage.remaining := by
  rcases course.recorded begins with ⟨now, reached, view, began⟩
  obtain rfl : reached = stage := by simpa [view] using hasStage
  rcases began with rfl | ⟨start, records⟩
  · exact ⟨⟨now, last.world⟩, [], _, .nil, .here⟩
  · cases records with
    | waiting timeline leads => exact ⟨start, _, _, timeline, leads⟩
    | done timeline leads => exact ⟨start, _, _, timeline, leads⟩

end Machine

end TestEngine
