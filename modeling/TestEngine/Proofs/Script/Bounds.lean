import TestEngine.Proofs.Machine.Timeline
import TestEngine.Proofs.Script.Round
import TestEngine.Run.Script

/-!
# The bounds of loops

A counted loop is bounded by a number of iterations, by a duration, or by both, and it may wait
between two iterations. Its rounds are taken apart without regard to time; a timeline of what the
loop has gone through then tells at which clock each round begins and how long each wait lasts.
`LoopBounds.Keeps` says what the bounds come to.
-/

namespace TestEngine

variable {ω : Type}

/-! ### Rounds in time -/

/-- How a wait before an iteration may go that begins at a moment. It is one sleep with a checkpoint
behind it, and the sleep is as long as the loop says unless the run had been interrupted before, a
signal arrives, or the job is rejected. -/
inductive WaitsOut (wait : UInt64) (place : Nat) (opens : Moment ω) :
    List (Exchange (List Occurrence)) → Bool → Prop
  | atOnce (noWait : place = 0 ∨ wait = 0) : WaitsOut wait place opens [] true
  | slept (between : 0 < place) (hasWait : wait ≠ 0) {occurrences checked : List Occurrence}
      {goesOn : Bool} {woken : Moment ω}
      (sleeps : (Request.sleep wait.toNat).Settles opens occurrences () woken)
      (lasts : opens.world.clock + wait.toNat ≤ woken.world.clock ∨
        opens.session.control.interrupted = true ∨ (∃ signal, .signal signal ∈ occurrences) ∨
          ∃ now, .reject now ∈ occurrences) :
      WaitsOut wait place opens
        [⟨.sleep wait.toNat, (), occurrences⟩, ⟨.checkpoint, goesOn, checked⟩] goesOn

theorem Waits.waitsOut {wait : UInt64} {place : Nat} {opens last : Moment ω}
    {history : List (Exchange (List Occurrence))} {goesOn : Bool}
    (waits : Waits wait place history goesOn) (timeline : Timeline opens history last) :
    WaitsOut wait place opens history goesOn := by
  cases waits with
  | atOnce noWait => exact .atOnce noWait
  | slept between hasWait occurrences checked goesOn =>
      rcases Timeline.cons_iff.mp timeline with ⟨woken, sleeps, -⟩
      refine .slept between hasWait sleeps ?_
      rcases sleeps.sleep with lasts | interrupted | disturbed
      · exact .inl lasts
      · exact .inr (.inl interrupted)
      · rcases List.exists_mem_of_ne_nil occurrences disturbed with ⟨sent | now, occurs⟩
        · exact .inr (.inr (.inl ⟨sent, occurs⟩))
        · exact .inr (.inr (.inr ⟨now, occurs⟩))

/-- A wait that does not let the loop go on ends interrupted. -/
theorem Waits.interrupted {wait : UInt64} {place : Nat} {opens last : Moment ω}
    {history : List (Exchange (List Occurrence))} (waits : Waits wait place history false)
    (timeline : Timeline opens history last) : last.session.control.interrupted = true := by
  cases waits with
  | slept between hasWait occurrences checked =>
      rcases Timeline.cons_iff.mp timeline with ⟨woken, -, checks⟩
      exact (Timeline.single_iff.mp checks).interrupted_of_checkpoint

/-- A loop finds its time up if and only if the clock has come to its deadline. -/
theorem Looks.timeUp_iff {deadline : Option Nat} {opens last : Moment ω}
    {history : List (Exchange (List Occurrence))} {timeUp : Bool}
    (looks : Looks deadline history timeUp) (timeline : Timeline opens history last) :
    timeUp = true ↔ ∃ moment ∈ deadline, moment ≤ last.world.clock := by
  cases looks with
  | untimed => simp
  | looked deadline reading note =>
      rcases (Timeline.single_iff.mp timeline).elapsed with ⟨rfl, rfl⟩
      simp

/-! ### Bounds -/

namespace LoopBounds

/-- The time from which on no iteration begins of a loop that begins at a moment. -/
def deadline (bounds : LoopBounds) (start : Moment ω) : Option Nat :=
  if 0 < bounds.maxDuration then some (start.world.clock + bounds.maxDuration.toNat) else none

/-- Whether the time of a loop is up that begins at a moment. -/
def TimeUp (bounds : LoopBounds) (start now : Moment ω) : Prop :=
  ∃ moment ∈ bounds.deadline start, moment ≤ now.world.clock

/-- How a loop ends behind its last round that would go on with another one: it waits, and then its
time is up, or the run turns out to be interrupted. -/
inductive Closes (bounds : LoopBounds) (start opens stop : Moment ω) (place : Nat) :
    List (Exchange (List Occurrence)) → Except Abort Flow → Prop
  | timeUp {wait look : List (Exchange (List Occurrence))}
      (waits : WaitsOut bounds.wait place opens wait true)
      (looks : Looks (bounds.deadline start) look true) (timeUp : bounds.TimeUp start stop) :
      Closes bounds start opens stop place (wait ++ look) (.ok .next)
  | interrupted {wait : List (Exchange (List Occurrence))}
      (waits : WaitsOut bounds.wait place opens wait false)
      (interrupted : stop.session.control.interrupted = true) :
      Closes bounds start opens stop place wait (.error .interrupted)

/-- What the bounds of a loop come to that begins and stops at given moments. -/
structure Keeps (bounds : LoopBounds) (start stop : Moment ω)
    (timing : List (Exchange (List Occurrence))) (rounds : List (Round (List Occurrence)))
    (closing : List (Exchange (List Occurrence))) (outcome : Except Abort Flow) : Prop where
  atMost : rounds.length ≤ bounds.limit
  /-- There are fewer rounds only if the last one does not go on, the time is up, or the run was
  interrupted. -/
  fewer : rounds.length < bounds.limit → (∃ last ∈ rounds.getLast?, last.outcome ≠ .ok .next) ∨
    bounds.TimeUp start stop ∨
    (outcome = .error .interrupted ∧ stop.session.control.interrupted = true)
  /-- Each round waits as is due, and its body begins in time. -/
  round (earlier : List (Round (List Occurrence))) (round : Round (List Occurrence))
    (later : List (Round (List Occurrence))) : rounds = earlier ++ round :: later →
    ∃ opens begins ends wait look,
      Timeline start (timing ++ earlier.flatMap Round.history) opens ∧
      Timeline opens round.opening begins ∧ Timeline begins round.body ends ∧
      round.opening = wait ++ look ∧ WaitsOut bounds.wait earlier.length opens wait true ∧
      Looks (bounds.deadline start) look false ∧ ¬bounds.TimeUp start begins
  /-- Behind the last round the loop asks something only if there might be another one. -/
  closing : closing = [] ∨ rounds.length < bounds.limit ∧ ∃ opens,
    Timeline start (timing ++ rounds.flatMap Round.history) opens ∧
    bounds.Closes start opens stop rounds.length closing outcome

end LoopBounds

/-- The deadline lies as far behind the beginning of the loop as its duration says. -/
theorem Times.eq_deadline {bounds : LoopBounds} {start opens : Moment ω}
    {history : List (Exchange (List Occurrence))} {deadline : Option Nat}
    (times : Times bounds.maxDuration history deadline) (timeline : Timeline start history opens) :
    deadline = bounds.deadline start := by
  rw [LoopBounds.deadline]
  cases times with
  | untimed noDuration => rw [if_neg (by simp [noDuration])]
  | timed hasDuration begun note =>
      rw [if_pos hasDuration, (Timeline.single_iff.mp timeline).elapsed.1]

namespace LoopBounds

variable {bounds : LoopBounds} {body : Visit Flow} {frame after : Frame}
  {start stop opens ready : Moment ω} {place : Nat}
  {timing closing : List (Exchange (List Occurrence))} {rounds : List (Round (List Occurrence))}
  {outcome : Except Abort Flow}

theorem length_le {deadline : Option Nat}
    (repeats : Repeats (bounds.Takes deadline body) (bounds.Quits deadline) 0 frame rounds closing
      outcome after) : rounds.length ≤ bounds.limit := by
  rcases List.eq_nil_or_concat rounds with rfl | ⟨front, last, rfl⟩
  · exact Nat.zero_le _
  · have hasLast : (front.concat last)[front.length]? = some last := by simp
    rcases repeats.getElem? hasLast with ⟨_, takes⟩
    have permitted := takes.permitted
    rw [List.length_concat]
    omega

/-- A round in a timeline waits as is due, and its body begins before the deadline. -/
theorem Takes.begins {round : Round (List Occurrence)}
    (takes : bounds.Takes (bounds.deadline start) body place frame round)
    (timeline : Timeline opens round.opening ready) :
    ∃ wait look, round.opening = wait ++ look ∧ WaitsOut bounds.wait place opens wait true ∧
      Looks (bounds.deadline start) look false ∧ ¬bounds.TimeUp start ready := by
  rcases takes.opening with ⟨wait, look, split, waits, looks⟩
  rw [split] at timeline
  rcases Timeline.append_iff.mp timeline with ⟨_, waited, looked⟩
  exact ⟨wait, look, split, waits.waitsOut waited, looks,
    fun timeUp => nomatch (looks.timeUp_iff looked).mpr timeUp⟩

theorem Quits.closes (quits : bounds.Quits (bounds.deadline start) place closing outcome)
    (timeline : Timeline opens closing stop) :
    (closing = [] ∧ place = bounds.limit) ∨
      place < bounds.limit ∧ bounds.Closes start opens stop place closing outcome := by
  cases quits with
  | usedUp all => exact .inl ⟨rfl, all⟩
  | timeUp more waits looks =>
      rcases Timeline.append_iff.mp timeline with ⟨ready, waited, looked⟩
      exact .inr ⟨more,
        .timeUp (waits.waitsOut waited) looks ((looks.timeUp_iff looked).mp rfl)⟩
  | interrupted more waits =>
      exact .inr ⟨more, .interrupted (waits.waitsOut timeline) (waits.interrupted timeline)⟩

theorem Closes.reason (closes : bounds.Closes start opens stop place closing outcome) :
    bounds.TimeUp start stop ∨
      (outcome = .error .interrupted ∧ stop.session.control.interrupted = true) := by
  cases closes with
  | timeUp _ _ timeUp => exact .inl timeUp
  | interrupted _ interrupted => exact .inr ⟨rfl, interrupted⟩

end LoopBounds

/-- Rounds in a timeline keep to the bounds of their loop. -/
theorem LoopBounds.keeps_of_repeats {bounds : LoopBounds} {body : Visit Flow}
    {frame after : Frame} {start stop : Moment ω}
    {timing closing : List (Exchange (List Occurrence))} {rounds : List (Round (List Occurrence))}
    {outcome : Except Abort Flow}
    (repeats : Repeats (bounds.Takes (bounds.deadline start) body)
      (bounds.Quits (bounds.deadline start)) 0 frame rounds closing outcome after)
    (timeline : Timeline start (timing ++ (rounds.flatMap Round.history ++ closing)) stop) :
    bounds.Keeps start stop timing rounds closing outcome := by
  rcases Timeline.append_iff.mp timeline with ⟨timed, timesOut, goesOn⟩
  rcases Timeline.append_iff.mp goesOn with ⟨ended, roundsOut, closingOut⟩
  -- Either the last round does not go on, or the loop quits.
  have ends : (∃ last ∈ rounds.getLast?, last.outcome ≠ .ok .next) ∧ closing = [] ∨
      (closing = [] ∧ rounds.length = bounds.limit) ∨
        rounds.length < bounds.limit ∧
          bounds.Closes start ended stop rounds.length closing outcome := by
    rcases repeats.ends with ⟨-, quits⟩ | ⟨front, last, rfl, -, cuts, nothing, -⟩
    · rw [Nat.zero_add] at quits
      exact .inr (quits.closes closingOut)
    · refine .inl ⟨⟨last, by simp, ?_⟩, nothing⟩
      cases cuts with
      | left outcome => simp [outcome]
      | stopped outcome => simp [outcome]
  refine ⟨length_le repeats, ?fewer, ?round, ?closing⟩
  case fewer =>
    intro fewer
    rcases ends with ⟨stopped, -⟩ | ⟨-, all⟩ | ⟨-, closes⟩
    · exact .inl stopped
    · omega
    · exact .inr closes.reason
  case round =>
    rintro earlier round later rfl
    rw [List.flatMap_append, List.flatMap_cons, Round.history, List.append_assoc] at roundsOut
    rcases Timeline.append_iff.mp roundsOut with ⟨opens, before, roundOut⟩
    rcases Timeline.append_iff.mp roundOut with ⟨begins, opened, bodyOut⟩
    rcases Timeline.append_iff.mp bodyOut with ⟨ends, visited, -⟩
    have hasRound : (earlier ++ round :: later)[earlier.length]? = some round := by simp
    rcases repeats.getElem? hasRound with ⟨_, takes⟩
    rw [Nat.zero_add] at takes
    rcases takes.begins opened with ⟨wait, look, split, waitsOut, looks, inTime⟩
    exact ⟨opens, begins, ends, wait, look, Timeline.append_iff.mpr ⟨timed, timesOut, before⟩,
      opened, visited, split, waitsOut, looks, inTime⟩
  case closing =>
    rcases ends with ⟨-, nothing⟩ | ⟨nothing, -⟩ | ⟨more, closes⟩
    · exact .inl nothing
    · exact .inl nothing
    · exact .inr ⟨more, ended, Timeline.append_iff.mpr ⟨timed, timesOut, roundsOut⟩, closes⟩

/-- What a loop has gone through in a timeline are rounds, and the deadline is the one of its
beginning. -/
theorem Visit.exists_rounds {bounds : LoopBounds} {body : Visit Flow} {frame after : Frame}
    {start stop : Moment ω} {history : List (Exchange (List Occurrence))}
    {outcome : Except Abort Flow} (timeline : Timeline start history stop)
    (yields : (Visit.loop bounds body).Yields frame history outcome after) :
    ∃ timing rounds closing,
      history = timing ++ (rounds.flatMap Round.history ++ closing) ∧
      Times bounds.maxDuration timing (bounds.deadline start) ∧
      Repeats (bounds.Takes (bounds.deadline start) body) (bounds.Quits (bounds.deadline start)) 0
        frame rounds closing outcome after := by
  rcases yields_loop yields with ⟨timing, deadline, rounds, closing, rfl, times, repeats⟩
  rcases Timeline.append_iff.mp timeline with ⟨timed, timesOut, -⟩
  obtain rfl := times.eq_deadline timesOut
  exact ⟨timing, rounds, closing, rfl, times, repeats⟩

/-- A loop keeps to its bounds, whatever its body does and however the clock goes. -/
theorem Visit.loop_keeps {bounds : LoopBounds} {body : Visit Flow} {frame after : Frame}
    {start stop : Moment ω} {history : List (Exchange (List Occurrence))}
    {outcome : Except Abort Flow} (timeline : Timeline start history stop)
    (yields : (Visit.loop bounds body).Yields frame history outcome after) :
    ∃ timing rounds closing,
      history = timing ++ (rounds.flatMap Round.history ++ closing) ∧
      Times bounds.maxDuration timing (bounds.deadline start) ∧
      Repeats (bounds.Takes (bounds.deadline start) body) (bounds.Quits (bounds.deadline start)) 0
        frame rounds closing outcome after ∧
      bounds.Keeps start stop timing rounds closing outcome := by
  rcases exists_rounds timeline yields with ⟨timing, rounds, closing, rfl, times, repeats⟩
  exact ⟨timing, rounds, closing, rfl, times, repeats, LoopBounds.keeps_of_repeats repeats timeline⟩

/-- Whatever a machine does around a task, each part of its history in which a loop is visited keeps
to the bounds of the loop. -/
theorem Machine.Course.loops_keep {α : Type} {place call : Nat} {mayReject : Session → Prop}
    {first last : Machine ω α} {trace : List Asked} {session : Session} {program : Program α}
    {stage : Stage ω α} (course : Course place (fun _ => False) mayReject first trace last)
    (begins : first.view place =
      ⟨some session, Function.update (fun _ => none) call (some (.ready program))⟩)
    (hasStage : (last.view place).stages call = some stage) :
    ∃ history : List (Exchange (List Occurrence)), program.Leads history stage.remaining ∧
      ∀ (bounds : LoopBounds) (body : Visit Flow) (frame after : Frame)
        (outcome : Except Abort Flow) (before visited behind : List (Exchange (List Occurrence))),
        history = before ++ visited ++ behind →
        (Visit.loop bounds body).Yields frame visited outcome after →
        ∃ start stop timing rounds closing, Timeline (start : Moment ω) visited stop ∧
          visited = timing ++ (rounds.flatMap Round.history ++ closing) ∧
          bounds.Keeps start stop timing rounds closing outcome := by
  rcases course.exists_timeline begins hasStage with ⟨begun, history, now, timeline, leads⟩
  refine ⟨history, leads, ?_⟩
  rintro bounds body frame after outcome before visited behind rfl yields
  rcases Timeline.append_iff.mp timeline with ⟨stop, reached, -⟩
  rcases Timeline.append_iff.mp reached with ⟨start, -, visits⟩
  rcases Visit.exists_rounds visits yields with ⟨timing, rounds, closing, rfl, -, repeats⟩
  exact ⟨start, stop, timing, rounds, closing, visits, rfl,
    LoopBounds.keeps_of_repeats repeats visits⟩

/-! ### Two iterations -/

/-- A session whose job is under way. -/
def Session.underWay : Session :=
  { Session.ofResult true ⟨"c", "Sample", .running, none, none, none, none, []⟩ with
    control := { Control.initial with status := .running } }

/-- A job that is under way on a clock which is at zero. -/
def Moment.underWay : Moment Unit := ⟨.underWay, .initial 0 .empty ()⟩

/-- The frame of a script in which nothing has happened. -/
def Frame.fresh : Frame := ⟨.ofProperties [], [], []⟩

/-- What the runs have in common that can call nothing. -/
def Setting.bare : Setting := ⟨⟨[], [], false, false⟩, 0, false⟩

/-- Two iterations within a second, and 100 milliseconds in between. -/
def LoopBounds.twice : LoopBounds := ⟨2, 1000, none, 100⟩

/-- A body that writes a line. -/
def Visit.again : Visit Flow :=
  siblings (Step.visits .bare [⟨"m", 1, .textMessage ⟨"again", none⟩⟩])

/-- What the loop goes through if something occurs while it waits, and how long it waits. -/
def LoopBounds.toldTwice (occurrences : List Occurrence) (waited : Nat) :
    List (Exchange (List Occurrence)) :=
  let writes (moment : Nat) : List (Exchange (List Occurrence)) :=
    [⟨.checkpoint, true, []⟩, ⟨.moveTo ⟨none, some "text_message m"⟩, (), []⟩,
      ⟨.now, .ofEpochMillis moment, []⟩]
  [⟨.elapsed, 0, []⟩, ⟨.elapsed, 0, []⟩] ++ writes 0 ++
    [⟨.sleep 100, (), occurrences⟩, ⟨.checkpoint, true, []⟩, ⟨.elapsed, waited, []⟩] ++
      writes waited

namespace LoopBounds

/-- If nothing occurs, the second iteration begins after 100 milliseconds. -/
theorem twice_keeps :
    ∃ stop after, Timeline .underWay (toldTwice [] 100) stop ∧
      (Visit.loop .twice Visit.again).Yields .fresh (toldTwice [] 100) (.ok .next) after ∧
      ∃ timing rounds closing,
        toldTwice [] 100 = timing ++ (rounds.flatMap Round.history ++ closing) ∧
        Times twice.maxDuration timing (twice.deadline .underWay) ∧
        Repeats (twice.Takes (twice.deadline .underWay) Visit.again)
          (twice.Quits (twice.deadline .underWay)) 0 .fresh rounds closing (.ok .next) after ∧
        twice.Keeps .underWay stop timing rounds closing (.ok .next) := by
  have timeline : ∃ stop, Timeline .underWay (toldTwice [] 100) stop :=
    ⟨_, .atOnce .empty rfl <| .atOnce .empty rfl <| .atOnce .empty rfl <| .atOnce .empty rfl <|
      .atOnce .empty rfl <|
      .cons ⟨.empty, .inr ⟨_, rfl,
        .answered (.aside .still rfl { World.initial 0 .empty () with clock := 100 }) rfl rfl⟩⟩ <|
      .atOnce .empty rfl <| .atOnce .empty rfl <| .atOnce .empty rfl <| .atOnce .empty rfl <|
      .atOnce .empty rfl .nil⟩
  have yields : (Visit.loop .twice Visit.again).Yields .fresh (toldTwice [] 100) (.ok .next) _ :=
    .ask (.ask (.ask (.ask (.ask (.ask (.ask (.ask (.ask (.ask (.ask .done))))))))))
  rcases timeline with ⟨stop, timeline⟩
  exact ⟨stop, _, timeline, yields, Visit.loop_keeps timeline yields⟩

/-- If the job is rejected while the loop waits, the second iteration begins at once, although
nobody has paused, resumed or interrupted the run. -/
theorem twice_cut_short :
    ∃ stop after occurrences, Timeline .underWay (toldTwice occurrences 0) stop ∧
      (Visit.loop .twice Visit.again).Yields .fresh (toldTwice occurrences 0) (.ok .next) after ∧
      stop.world.clock < Moment.underWay.world.clock + twice.wait.toNat ∧
      Moment.underWay.session.control.interrupted = false ∧
      ∀ signal, .signal signal ∉ occurrences := by
  have timeline : ∃ stop : Moment Unit, stop.world.clock = 0 ∧
      Timeline .underWay (toldTwice [.reject (.ofEpochMillis 0)] 0) stop := by
    refine ⟨_, ?clock, .atOnce .empty rfl <| .atOnce .empty rfl <| .atOnce .empty rfl <|
      .atOnce .empty rfl <| .atOnce .empty rfl <|
      .cons ⟨.empty, .inr ⟨_, rfl,
        .answered (.occurs .still (.reject (.ofEpochMillis 0))) rfl rfl⟩⟩ <|
      .atOnce .empty rfl <| .atOnce .empty rfl <| .atOnce .empty rfl <| .atOnce .empty rfl <|
      .atOnce .empty rfl .nil⟩
    case clock => rfl
  have yields : (Visit.loop .twice Visit.again).Yields .fresh
      (toldTwice [.reject (.ofEpochMillis 0)] 0) (.ok .next) _ :=
    .ask (.ask (.ask (.ask (.ask (.ask (.ask (.ask (.ask (.ask (.ask .done))))))))))
  rcases timeline with ⟨stop, clock, timeline⟩
  exact ⟨stop, _, _, timeline, yields, by rw [clock]; decide, rfl, by simp⟩

end LoopBounds

end TestEngine
