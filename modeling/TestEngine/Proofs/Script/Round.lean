import TestEngine.Proofs.Exchange
import TestEngine.Run.Step

/-!
# Rounds of loops

A loop goes through rounds. Each has the visit of the body in it, from the frame in which the number
of the iteration or the item is bound, and what the loop asks before that. `Repeats` says of a
history that it is made up of rounds which went on one after the other, until the loop quits or a
round does not go on. What a loop has gone through can be taken apart in this way, be it a counted
one or one over the items of a list.
-/

namespace TestEngine

variable {ν : Type}

/-! ### Frames -/

/-- The frame with a property put into its store. -/
def Frame.put (frame : Frame) (property : Property) : Frame :=
  { frame with context := { frame.context with
      properties := frame.context.properties.put property } }

/-- The frame that a loop over a list leaves as it ends. -/
def Frame.unbind (frame : Frame) (element : String) (outcome : Except Abort Flow) : Frame :=
  { frame with context := { frame.context with
      properties := Visit.unbind element outcome frame.context.properties } }

/-! ### Rounds -/

/-- One iteration of a loop: what it asks before its body, and the visit of the body. -/
structure Round (ν : Type) where
  opening : List (Exchange ν)
  start : Frame
  body : List (Exchange ν)
  outcome : Except Abort Flow
  stop : Frame

def Round.history (round : Round ν) : List (Exchange ν) := round.opening ++ round.body

/-- A round that is the last one because of its body, with what that makes of the loop. -/
inductive Round.Cuts (round : Round ν) : Except Abort Flow → Prop
  | left (outcome : round.outcome = .ok .leave) : round.Cuts (.ok .next)
  | stopped {reason : Abort} (outcome : round.outcome = .error reason) : round.Cuts (.error reason)

section Repeats

variable (takes : Nat → Frame → Round ν → Prop)
  (quits : Nat → List (Exchange ν) → Except Abort Flow → Prop)

/-- The rounds of a loop from a place and a frame on, and what it asks behind the last one. Which
rounds there can be at a place, and how the loop quits there, is left open. -/
inductive Repeats : Nat → Frame → List (Round ν) → List (Exchange ν) → Except Abort Flow → Frame →
    Prop
  | quit {place : Nat} {frame : Frame} {closing : List (Exchange ν)} {outcome : Except Abort Flow}
      (quits : quits place closing outcome) : Repeats place frame [] closing outcome frame
  | cut {place : Nat} {frame : Frame} {round : Round ν} {outcome : Except Abort Flow}
      (takes : takes place frame round) (cuts : round.Cuts outcome) :
      Repeats place frame [round] [] outcome round.stop
  | next {place : Nat} {frame after : Frame} {round : Round ν} {rounds : List (Round ν)}
      {closing : List (Exchange ν)} {outcome : Except Abort Flow}
      (takes : takes place frame round) (goesOn : round.outcome = .ok .next)
      (rest : Repeats (place + 1) round.stop rounds closing outcome after) :
      Repeats place frame (round :: rounds) closing outcome after

end Repeats

namespace Repeats

variable {takes : Nat → Frame → Round ν → Prop}
  {quits : Nat → List (Exchange ν) → Except Abort Flow → Prop} {place : Nat}
  {frame after : Frame} {rounds : List (Round ν)} {closing : List (Exchange ν)}
  {outcome : Except Abort Flow}

theorem getElem? (repeats : Repeats takes quits place frame rounds closing outcome after)
    {index : Nat} {round : Round ν} (hasRound : rounds[index]? = some round) :
    ∃ frame, takes (place + index) frame round := by
  induction repeats generalizing index with
  | quit => exact nomatch hasRound
  | @cut place frame only _ takes =>
      rcases index with _ | index
      · obtain rfl : only = round := by simpa using hasRound
        exact ⟨frame, takes⟩
      · simp at hasRound
  | @next place frame _ first _ _ _ takes _ _ ih =>
      rcases index with _ | index
      · obtain rfl : first = round := by simpa using hasRound
        exact ⟨frame, takes⟩
      · rw [← Nat.add_assoc, Nat.add_right_comm]
        exact ih (by simpa using hasRound)

/-- Either all rounds went on and the loop quits, or the last one did not. -/
theorem ends (repeats : Repeats takes quits place frame rounds closing outcome after) :
    ((∀ round ∈ rounds, round.outcome = .ok .next) ∧
      quits (place + rounds.length) closing outcome) ∨
    ∃ front last, rounds = front ++ [last] ∧ (∀ round ∈ front, round.outcome = .ok .next) ∧
      last.Cuts outcome ∧ closing = [] ∧ after = last.stop := by
  induction repeats with
  | quit quits => exact .inl ⟨by simp, quits⟩
  | @cut place frame round _ _ cuts => exact .inr ⟨[], round, rfl, by simp, cuts, rfl, rfl⟩
  | @next place frame _ round rounds _ _ _ goesOn _ ih =>
      rcases ih with ⟨allGoOn, quits⟩ | ⟨front, last, rfl, allGoOn, cuts, nothing, stop⟩
      · refine .inl ⟨List.forall_mem_cons.mpr ⟨goesOn, allGoOn⟩, ?_⟩
        rw [List.length_cons, Nat.add_comm rounds.length, ← Nat.add_assoc]
        exact quits
      · exact .inr ⟨round :: front, last, rfl, List.forall_mem_cons.mpr ⟨goesOn, allGoOn⟩, cuts,
          nothing, stop⟩

/-- A round that leaves the loop is the last one, nothing is asked behind it, and the loop goes
well. -/
theorem last_of_left (repeats : Repeats takes quits place frame rounds closing outcome after)
    {round : Round ν} (roundMem : round ∈ rounds) (left : round.outcome = .ok .leave) :
    rounds.getLast? = some round ∧ closing = [] ∧ outcome = .ok .next ∧ after = round.stop := by
  have notNext : round.outcome ≠ .ok .next := by simp [left]
  rcases repeats.ends with ⟨allGoOn, -⟩ | ⟨front, last, rfl, allGoOn, cuts, nothing, stop⟩
  · exact absurd (allGoOn round roundMem) notNext
  · rcases List.mem_append.mp roundMem with inFront | isLast
    · exact absurd (allGoOn round inFront) notNext
    · obtain rfl := List.mem_singleton.mp isLast
      cases cuts with
      | left _ => exact ⟨by simp, nothing, rfl, stop⟩
      | stopped stopped => exact nomatch left.symm.trans stopped

/-- A loop does not leave the one around it. -/
theorem outcome_ne_leave (repeats : Repeats takes quits place frame rounds closing outcome after)
    (quitsWell : ∀ {place closing outcome}, quits place closing outcome → outcome ≠ .ok .leave) :
    outcome ≠ .ok .leave := by
  rcases repeats.ends with ⟨-, quits⟩ | ⟨_, _, _, _, cuts, _⟩
  · exact quitsWell quits
  · cases cuts <;> simp

end Repeats

/-- How the rounds of a loop end it. If one of them leaves, it is the last one and the loop has gone
well, with nothing asked behind the round. A loop of which no round leaves or stops quits by
itself. -/
structure EndsLoop (quits : Nat → List (Exchange ν) → Except Abort Flow → Prop)
    (rounds : List (Round ν)) (closing : List (Exchange ν)) (outcome : Except Abort Flow)
    (after : Frame) : Prop where
  left : ∀ round ∈ rounds, round.outcome = .ok .leave →
    rounds.getLast? = some round ∧ closing = [] ∧ outcome = .ok .next ∧ after = round.stop
  goneOn : (∀ round ∈ rounds, round.outcome = .ok .next) → quits rounds.length closing outcome

theorem Repeats.endsLoop {takes : Nat → Frame → Round ν → Prop}
    {quits : Nat → List (Exchange ν) → Except Abort Flow → Prop} {frame after : Frame}
    {rounds : List (Round ν)} {closing : List (Exchange ν)} {outcome : Except Abort Flow}
    (repeats : Repeats takes quits 0 frame rounds closing outcome after) :
    EndsLoop quits rounds closing outcome after where
  left _ roundMem left := repeats.last_of_left roundMem left
  goneOn allGoOn := by
    rcases repeats.ends with ⟨-, quits⟩ | ⟨front, last, rfl, _, cuts, _⟩
    · exact Nat.zero_add rounds.length ▸ quits
    · have goesOn := allGoOn last (by simp)
      cases cuts with
      | left left => exact nomatch goesOn.symm.trans left
      | stopped stopped => exact nomatch goesOn.symm.trans stopped

/-! ### Counted loops -/

/-- What a loop asks to wait before an iteration, and whether the run may go on then. -/
inductive Waits (wait : UInt64) (place : Nat) : List (Exchange ν) → Bool → Prop
  | atOnce (noWait : place = 0 ∨ wait = 0) : Waits wait place [] true
  | slept (between : 0 < place) (hasWait : wait ≠ 0) (slept checked : ν) (goesOn : Bool) :
      Waits wait place [⟨.sleep wait.toNat, (), slept⟩, ⟨.checkpoint, goesOn, checked⟩] goesOn

/-- What a loop asks to see whether its time is up, and whether it is. -/
inductive Looks : Option Nat → List (Exchange ν) → Bool → Prop
  | untimed : Looks none [] false
  | looked (deadline moment : Nat) (note : ν) :
      Looks (some deadline) [⟨.elapsed, moment, note⟩] (decide (deadline ≤ moment))

/-- The frame with the number of an iteration under the name that the loop gives. -/
def Frame.withIndex (frame : Frame) (iteration : Nat) : Option String → Frame
  | some index => frame.put (.ofInteger index (UInt32.ofNat iteration).toInt32)
  | none => frame

/-- What a loop asks to set its deadline, and the deadline that it sets. -/
inductive Times (maxDuration : UInt64) : List (Exchange ν) → Option Nat → Prop
  | untimed (noDuration : maxDuration = 0) : Times maxDuration [] none
  | timed (hasDuration : 0 < maxDuration) (begun : Nat) (note : ν) :
      Times maxDuration [⟨.elapsed, begun, note⟩] (some (begun + maxDuration.toNat))

namespace LoopBounds

/-- A round that a counted loop can go through at a place. -/
structure Takes (bounds : LoopBounds) (deadline : Option Nat) (body : Visit Flow) (place : Nat)
    (frame : Frame) (round : Round ν) : Prop where
  permitted : place < bounds.limit
  opening : ∃ wait look, round.opening = wait ++ look ∧ Waits bounds.wait place wait true ∧
    Looks deadline look false
  start : round.start = frame.withIndex place bounds.index
  yields : body.Yields round.start round.body round.outcome round.stop

/-- How a counted loop quits at a place: its iterations are used up, its time is, or the run was
interrupted. -/
inductive Quits (bounds : LoopBounds) (deadline : Option Nat) (place : Nat) :
    List (Exchange ν) → Except Abort Flow → Prop
  | usedUp (all : place = bounds.limit) : Quits bounds deadline place [] (.ok .next)
  | timeUp {wait look : List (Exchange ν)} (more : place < bounds.limit)
      (waits : Waits bounds.wait place wait true) (looks : Looks deadline look true) :
      Quits bounds deadline place (wait ++ look) (.ok .next)
  | interrupted {wait : List (Exchange ν)} (more : place < bounds.limit)
      (waits : Waits bounds.wait place wait false) :
      Quits bounds deadline place wait (.error .interrupted)

theorem Quits.outcome_ne_leave {bounds : LoopBounds} {deadline : Option Nat} {place : Nat}
    {closing : List (Exchange ν)} {outcome : Except Abort Flow}
    (quits : bounds.Quits deadline place closing outcome) : outcome ≠ .ok .leave := by
  cases quits <;> simp

end LoopBounds

namespace Visit

variable {history : List (Exchange ν)} {frame after : Frame}

theorem yields_waitBefore {wait : UInt64} {place : Nat} {outcome : Except Abort Unit}
    (yields : (waitBefore wait place).Yields frame history outcome after) :
    after = frame ∧ ∃ goesOn, Waits wait place history goesOn ∧
      outcome = if goesOn then .ok () else .error .interrupted := by
  rw [waitBefore] at yields
  split at yields
  · rename_i waits
    obtain ⟨between, hasWait⟩ : 0 < place ∧ wait ≠ 0 := by simpa using waits
    rcases yields_ask_bind.mp yields with ⟨_, slept, rest, rfl, checks⟩
    rw [← bind_pure checkpoint] at checks
    rcases yields_checkpoint_bind.mp checks with ⟨goesOn, checked, rest, rfl, goes⟩
    cases goesOn with
    | true =>
        rcases yields_pure.mp goes with ⟨rfl, rfl, rfl⟩
        exact ⟨rfl, true, .slept between hasWait slept checked true, rfl⟩
    | false =>
        rcases goes with ⟨rfl, rfl, rfl⟩
        exact ⟨rfl, false, .slept between hasWait slept checked false, rfl⟩
  · rename_i noWait
    rcases yields_pure.mp yields with ⟨rfl, rfl, rfl⟩
    have atOnce : place = 0 ∨ wait = 0 := by
      rcases Nat.eq_zero_or_pos place with first | between
      · exact .inl first
      · exact .inr (by simpa [between] using noWait)
    exact ⟨rfl, true, .atOnce atOnce, rfl⟩

theorem yields_isOver {deadline : Option Nat} {outcome : Except Abort Bool}
    (yields : (isOver deadline).Yields frame history outcome after) :
    after = frame ∧ ∃ timeUp, Looks deadline history timeUp ∧ outcome = .ok timeUp := by
  cases deadline with
  | none =>
      rcases yields_pure.mp yields with ⟨rfl, rfl, rfl⟩
      exact ⟨rfl, false, .untimed, rfl⟩
  | some deadline =>
      rcases yields_ask_bind.mp yields with ⟨moment, note, rest, rfl, goesOn⟩
      rcases yields_pure.mp goesOn with ⟨rfl, rfl, rfl⟩
      exact ⟨rfl, _, .looked deadline moment note, rfl⟩

theorem yields_bindIndex {place : Nat} {index : Option String} {outcome : Except Abort Unit}
    (yields : (bindIndex place index).Yields frame history outcome after) :
    history = [] ∧ outcome = .ok () ∧ after = frame.withIndex place index := by
  cases index with
  | none => exact yields_pure.mp yields
  | some index => exact yields_modify.mp yields

/-- A counted loop goes through rounds until its iterations are used up, it is left, or a round or
the wait before one stops it. -/
theorem yields_iterate {bounds : LoopBounds} {deadline : Option Nat} {body : Visit Flow}
    {remaining place : Nat} {outcome : Except Abort Flow} (all : place + remaining = bounds.limit)
    (yields : (iterate bounds deadline body remaining place).Yields frame history outcome after) :
    ∃ rounds closing, history = rounds.flatMap Round.history ++ closing ∧
      Repeats (bounds.Takes deadline body) (bounds.Quits deadline) place frame rounds closing
        outcome after := by
  induction remaining generalizing place frame history with
  | zero =>
      rcases yields_pure.mp yields with ⟨rfl, rfl, rfl⟩
      exact ⟨[], [], rfl, .quit (.usedUp all)⟩
  | succ remaining ih =>
      have more : place < bounds.limit := by omega
      rw [iterate, yields_bind] at yields
      rcases yields with ⟨reason, rfl, stopped⟩ | ⟨_, waitedIn, wait, rest, rfl, waited, yields⟩
      · rcases yields_waitBefore stopped with ⟨rfl, goesOn, waits, same⟩
        cases goesOn with
        | true => exact nomatch same
        | false =>
            obtain rfl : reason = .interrupted := by simpa using same
            exact ⟨[], history, rfl, .quit (.interrupted more waits)⟩
      obtain ⟨unmoved, goesOn, waits, same⟩ := yields_waitBefore waited
      rw [unmoved] at yields
      obtain rfl : goesOn = true := by
        cases goesOn with
        | true => rfl
        | false => exact nomatch same
      rw [yields_bind] at yields
      rcases yields with ⟨reason, rfl, stopped⟩ | ⟨timeUp, _, look, rest, rfl, looked, yields⟩
      · rcases yields_isOver stopped with ⟨-, _, -, same⟩
        exact nomatch same
      rcases yields_isOver looked with ⟨unchanged, timeIsUp, looks, same⟩
      obtain rfl : timeUp = timeIsUp := Except.ok.inj same
      rw [unchanged] at yields
      cases timeUp with
      | true =>
          rcases yields_pure.mp yields with ⟨rfl, rfl, rfl⟩
          exact ⟨[], wait ++ look, by simp, .quit (.timeUp more waits looks)⟩
      | false =>
          rw [if_neg Bool.false_ne_true, yields_bind] at yields
          rcases yields with ⟨reason, rfl, stopped⟩ | ⟨_, start, none, rest, rfl, binds, yields⟩
          · exact nomatch (yields_bindIndex stopped).2.1
          rcases yields_bindIndex binds with ⟨rfl, -, start⟩
          have takes {visited : List (Exchange ν)} {ended : Except Abort Flow} {stop : Frame}
              (yields : body.Yields _ visited ended stop) :
              bounds.Takes deadline body place frame ⟨wait ++ look, _, visited, ended, stop⟩ :=
            ⟨more, ⟨wait, look, rfl, waits, looks⟩, start, yields⟩
          rw [yields_bind] at yields
          rcases yields with ⟨reason, rfl, stopped⟩ | ⟨flow, stop, visited, rest, rfl, went, yields⟩
          · exact ⟨[_], [], by simp [Round.history], .cut (takes stopped) (.stopped rfl)⟩
          · cases flow with
            | leave =>
                rcases yields_pure.mp yields with ⟨rfl, rfl, rfl⟩
                exact ⟨[_], [], by simp [Round.history], .cut (takes went) (.left rfl)⟩
            | next =>
                rcases ih (by omega) yields with ⟨rounds, closing, rfl, repeats⟩
                exact ⟨_ :: rounds, closing, by simp [Round.history],
                  .next (takes went) rfl repeats⟩

theorem yields_setDeadline {maxDuration : UInt64} {outcome : Except Abort (Option Nat)}
    (yields : (setDeadline maxDuration).Yields frame history outcome after) :
    after = frame ∧ ∃ deadline, Times maxDuration history deadline ∧ outcome = .ok deadline := by
  rw [setDeadline] at yields
  split at yields
  · rename_i hasDuration
    rcases yields_ask_bind.mp yields with ⟨begun, note, rest, rfl, goesOn⟩
    rcases yields_pure.mp goesOn with ⟨rfl, rfl, rfl⟩
    exact ⟨rfl, _, .timed hasDuration begun note, rfl⟩
  · rename_i noDuration
    rcases yields_pure.mp yields with ⟨rfl, rfl, rfl⟩
    have isZero : maxDuration = 0 := by simpa [UInt64.pos_iff_ne_zero] using noDuration
    exact ⟨rfl, none, .untimed isZero, rfl⟩

/-- A loop sets its deadline and goes through its rounds from the first iteration on. -/
theorem yields_loop {bounds : LoopBounds} {body : Visit Flow} {outcome : Except Abort Flow}
    (yields : (loop bounds body).Yields frame history outcome after) :
    ∃ timing deadline rounds closing,
      history = timing ++ (rounds.flatMap Round.history ++ closing) ∧
        Times bounds.maxDuration timing deadline ∧
          Repeats (bounds.Takes deadline body) (bounds.Quits deadline) 0 frame rounds closing
            outcome after := by
  rw [loop, yields_bind] at yields
  rcases yields with ⟨reason, rfl, stopped⟩ | ⟨deadline, _, timing, rest, rfl, timed, yields⟩
  · rcases yields_setDeadline stopped with ⟨-, _, -, same⟩
    exact nomatch same
  rcases yields_setDeadline timed with ⟨rfl, timesOut, times, same⟩
  obtain rfl : deadline = timesOut := Except.ok.inj same
  rcases yields_iterate (Nat.zero_add _) yields with ⟨rounds, closing, rfl, repeats⟩
  exact ⟨timing, deadline, rounds, closing, rfl, times, repeats⟩

end Visit

/-! ### Loops over items -/

/-- A round that a loop over items can go through at a place. -/
structure TakesItem (element : String) (items : List Property) (body : Visit Flow) (place : Nat)
    (frame : Frame) (round : Round ν) : Prop where
  opening : round.opening = []
  start : ∃ item, items[place]? = some item ∧ round.start = frame.put (item.renamed element)
  yields : body.Yields round.start round.body round.outcome round.stop

/-- A loop over items quits once it is behind the last one. -/
inductive QuitsItems (items : List Property) (place : Nat) :
    List (Exchange ν) → Except Abort Flow → Prop
  | usedUp (all : place = items.length) : QuitsItems items place [] (.ok .next)

theorem QuitsItems.outcome_ne_leave {items : List Property} {place : Nat}
    {closing : List (Exchange ν)} {outcome : Except Abort Flow}
    (quits : QuitsItems items place closing outcome) : outcome ≠ .ok .leave := by
  cases quits
  simp

namespace Visit

variable {history : List (Exchange ν)} {frame after : Frame} {element : String}
  {body : Visit Flow} {outcome : Except Abort Flow}

theorem yields_eachItem (earlier : List Property) {items : List Property}
    (yields : (eachItem element body items).Yields frame history outcome after) :
    ∃ rounds, history = rounds.flatMap Round.history ∧
      Repeats (TakesItem element (earlier ++ items) body) (QuitsItems (earlier ++ items))
        earlier.length frame rounds [] outcome after := by
  induction items generalizing earlier frame history with
  | nil =>
      rcases yields_pure.mp yields with ⟨rfl, rfl, rfl⟩
      exact ⟨[], rfl, .quit (.usedUp (by simp))⟩
  | cons item rest ih =>
      have takes {visited : List (Exchange ν)} {ended : Except Abort Flow} {stop : Frame}
          (yields : body.Yields (frame.put (item.renamed element)) visited ended stop) :
          TakesItem element (earlier ++ item :: rest) body earlier.length frame
            ⟨[], frame.put (item.renamed element), visited, ended, stop⟩ :=
        ⟨rfl, ⟨item, by simp, rfl⟩, yields⟩
      have yields := yields_modify_bind.mp yields
      rw [yields_bind] at yields
      rcases yields with ⟨reason, rfl, stopped⟩ | ⟨flow, stop, visited, rest, rfl, went, yields⟩
      · exact ⟨[_], by simp [Round.history], .cut (takes stopped) (.stopped rfl)⟩
      · cases flow with
        | leave =>
            rcases yields_pure.mp yields with ⟨rfl, rfl, rfl⟩
            exact ⟨[_], by simp [Round.history], .cut (takes went) (.left rfl)⟩
        | next =>
            rcases ih (earlier ++ [item]) yields with ⟨rounds, rfl, repeats⟩
            rw [List.append_assoc, List.length_append] at repeats
            exact ⟨_ :: rounds, by simp [Round.history], .next (takes went) rfl repeats⟩

/-- A loop over a list fails before its first round, or goes through its rounds and unbinds the name
of the items in the end. -/
theorem yields_foreach {list : String}
    (yields : (foreach list element body).Yields frame history outcome after) :
    (∃ error, foreachItems frame.context.properties list element = .error error ∧ history = [] ∧
      outcome = .error (.failed error) ∧ after = frame) ∨
    ∃ items rounds reached, foreachItems frame.context.properties list element = .ok items ∧
      history = rounds.flatMap Round.history ∧
        Repeats (TakesItem element items body) (QuitsItems items) 0 frame rounds [] outcome
          reached ∧ after = reached.unbind element outcome := by
  have yields := yields_store_bind.mp yields
  cases hasItems : foreachItems frame.context.properties list element with
  | error error =>
      rw [hasItems] at yields
      rcases yields_abort.mp yields with ⟨rfl, rfl, rfl⟩
      exact .inl ⟨error, rfl, rfl, rfl, rfl⟩
  | ok items =>
      rw [hasItems] at yields
      rcases yields_attempt_bind.mp yields with ⟨ended, reached, first, rest, rfl, visited, yields⟩
      rcases yields_conclude.mp (yields_modify_bind.mp yields) with ⟨rfl, rfl, rfl⟩
      rcases yields_eachItem [] visited with ⟨rounds, rfl, repeats⟩
      exact .inr ⟨items, rounds, reached, rfl, by simp, repeats, rfl⟩

end Visit

end TestEngine
