import Mathlib.Data.BitVec
import TestEngine.Proofs.Script.FailFast
import TestEngine.Proofs.Script.Round

/-!
# The numbers of iterations

A counted loop with an index has the number of each iteration under that name when the body starts,
whatever the body of an earlier one has done to the name. Iterations are counted by an unsigned
number and stored as a signed one, both of 32 bits. So the number that is stored is the balanced
residue of the count: no two iterations have the same one, and it is the count itself for the first
half of all counts and negative for the second half.
-/

namespace TestEngine

variable {ν : Type}

/-! ### Counts -/

/-- The number that is stored for an iteration. -/
def iterationNumber (iteration : Nat) : Int32 := (UInt32.ofNat iteration).toInt32

theorem toInt_iterationNumber (iteration : Nat) :
    (iterationNumber iteration).toInt = (iteration : Int).bmod (2 ^ 32) := by
  change (UInt32.ofNat iteration).toBitVec.toInt = _
  rw [UInt32.toBitVec_ofNat', BitVec.toInt_ofNat']

section Counts

variable {iteration other : Nat}

theorem toInt_iterationNumber_of_lt (small : iteration < 2 ^ 31) :
    (iterationNumber iteration).toInt = iteration := by
  rw [toInt_iterationNumber]
  exact Int.bmod_eq_of_le_mul_two (by push_cast; omega) (by push_cast; omega)

theorem toInt_iterationNumber_of_le (large : 2 ^ 31 ≤ iteration) (isCount : iteration < 2 ^ 32) :
    (iterationNumber iteration).toInt = iteration - 2 ^ 32 := by
  have sameResidue : ((iteration : Int) - (2 ^ 32 : Nat)).bmod (2 ^ 32) =
      (iteration : Int).bmod (2 ^ 32) := Int.sub_bmod_right _ _
  rw [toInt_iterationNumber, ← sameResidue]
  exact Int.bmod_eq_of_le_mul_two (by push_cast; omega) (by push_cast; omega)

theorem toInt_iterationNumber_eq_iff (isCount : iteration < 2 ^ 32) :
    (iterationNumber iteration).toInt = iteration ↔ iteration < 2 ^ 31 := by
  constructor
  · intro faithful
    by_contra large
    have wraps := toInt_iterationNumber_of_le (Nat.le_of_not_lt large) isCount
    omega
  · exact toInt_iterationNumber_of_lt

theorem toInt_iterationNumber_neg_iff (isCount : iteration < 2 ^ 32) :
    (iterationNumber iteration).toInt < 0 ↔ 2 ^ 31 ≤ iteration := by
  constructor
  · intro negative
    by_contra small
    have faithful := toInt_iterationNumber_of_lt (Nat.lt_of_not_le small)
    omega
  · intro large
    have wraps := toInt_iterationNumber_of_le large isCount
    omega

/-- No number is stored for two counts. -/
theorem iterationNumber_inj (isCount : iteration < 2 ^ 32) (otherIsCount : other < 2 ^ 32)
    (same : iterationNumber iteration = iterationNumber other) : iteration = other := by
  have sameCount : UInt32.ofNat iteration = UInt32.ofNat other := by
    have := congrArg Int32.toUInt32 same
    simpa [iterationNumber] using this
  have sameNat := congrArg UInt32.toNat sameCount
  rwa [UInt32.toNat_ofNat_of_lt' isCount, UInt32.toNat_ofNat_of_lt' otherIsCount] at sameNat

end Counts

theorem LoopBounds.limit_lt (bounds : LoopBounds) : bounds.limit < 2 ^ 32 := by
  unfold limit
  split
  · exact bounds.maxIterations.toNat_lt
  · split <;> decide

/-! ### Rounds -/

/-- The frame has a whole number, and nothing else, under a name. -/
def Frame.HasNumber (frame : Frame) (name : String) (number : Int32) : Prop :=
  frame.context.properties.get? name = some (.ofInteger name number)

theorem Frame.HasNumber.eq {frame : Frame} {name : String} {number other : Int32}
    (hasNumber : frame.HasNumber name number) (hasOther : frame.HasNumber name other) :
    number = other := by
  have same := hasNumber.symm.trans hasOther
  simpa [Property.ofInteger, Property.of] using same

/-- How rounds are numbered under a name when their bodies start. -/
structure Round.Numbered (index : String) (rounds : List (Round ν)) : Prop where
  numbered (place : Nat) (round : Round ν) : rounds[place]? = some round →
    ∃ number, round.start.HasNumber index number
  /-- The number is that of the iteration as long as there are fewer than `2 ^ 31` before it. -/
  faithful (place : Nat) (round : Round ν) (number : Int32) : rounds[place]? = some round →
    round.start.HasNumber index number → (number.toInt = place ↔ place < 2 ^ 31)
  negative (place : Nat) (round : Round ν) (number : Int32) : rounds[place]? = some round →
    round.start.HasNumber index number → (number.toInt < 0 ↔ 2 ^ 31 ≤ place)
  distinct (place other : Nat) (round otherRound : Round ν) (number : Int32) :
    rounds[place]? = some round → rounds[other]? = some otherRound →
      round.start.HasNumber index number → otherRound.start.HasNumber index number → place = other

section Loops

variable {bounds : LoopBounds} {deadline : Option Nat} {index : String} {body : Visit Flow}
  {frame after : Frame} {rounds : List (Round ν)} {closing : List (Exchange ν)}
  {outcome : Except Abort Flow}

/-- What the loop binds stands in the frame that the body starts from, whatever stood there. -/
theorem LoopBounds.Takes.hasNumber {place : Nat} {round : Round ν}
    (takes : bounds.Takes deadline body place frame round) (named : bounds.index = some index) :
    round.start.HasNumber index (iterationNumber place) := by
  rw [takes.start, named]
  simp [Frame.HasNumber, Frame.withIndex, Frame.put, Store.put, Property.ofInteger, Property.of,
    iterationNumber]

theorem Repeats.numbered
    (repeats : Repeats (bounds.Takes deadline body) (bounds.Quits deadline) 0 frame rounds closing
      outcome after) (named : bounds.index = some index) : Round.Numbered index rounds := by
  have counted {place : Nat} {round : Round ν} (hasRound : rounds[place]? = some round) :
      place < 2 ^ 32 ∧ round.start.HasNumber index (iterationNumber place) := by
    rcases repeats.getElem? hasRound with ⟨frame, takes⟩
    rw [Nat.zero_add] at takes
    exact ⟨Nat.lt_trans takes.permitted bounds.limit_lt, takes.hasNumber named⟩
  constructor
  case numbered =>
    intro place round hasRound
    exact ⟨_, (counted hasRound).2⟩
  case faithful =>
    intro place round number hasRound hasNumber
    rw [hasNumber.eq (counted hasRound).2]
    exact toInt_iterationNumber_eq_iff (counted hasRound).1
  case negative =>
    intro place round number hasRound hasNumber
    rw [hasNumber.eq (counted hasRound).2]
    exact toInt_iterationNumber_neg_iff (counted hasRound).1
  case distinct =>
    intro place other round otherRound number hasRound hasOther hasNumber otherHasNumber
    apply iterationNumber_inj (counted hasRound).1 (counted hasOther).1
    exact ((counted hasRound).2.eq hasNumber).trans (otherHasNumber.eq (counted hasOther).2)

/-- A loop that is not timed, does not wait and goes on after every round uses its iterations up. -/
theorem Repeats.length_eq_limit
    (repeats : Repeats (bounds.Takes none body) (bounds.Quits none) 0 frame rounds closing outcome
      after) (noWait : bounds.wait = 0) (goesOn : ∀ round ∈ rounds, round.outcome = .ok .next) :
    rounds.length = bounds.limit := by
  have quits := repeats.endsLoop.goneOn goesOn
  cases quits with
  | usedUp all => exact all
  | timeUp more waits looks => cases looks
  | interrupted more waits =>
      cases waits with
      | slept between hasWait slept checked => exact absurd noWait hasWait

end Loops

/-- When the body of a loop with an index starts, the number that the iteration has is under that
name, whatever the body has done to the name before. It is the count of the iteration in the first
`2 ^ 31` of them; from there on it is negative. -/
theorem Visit.loop_numbers {bounds : LoopBounds} {index : String}
    (named : bounds.index = some index) {body : Visit Flow} {frame after : Frame}
    {history : List (Exchange ν)} {outcome : Except Abort Flow}
    (yields : (loop bounds body).Yields frame history outcome after) :
    ∃ timing deadline rounds closing,
      history = timing ++ (rounds.flatMap Round.history ++ closing) ∧
        Times bounds.maxDuration timing deadline ∧
        Repeats (bounds.Takes deadline body) (bounds.Quits deadline) 0 frame rounds closing outcome
          after ∧ Round.Numbered index rounds := by
  rcases yields_loop yields with ⟨timing, deadline, rounds, closing, split, times, repeats⟩
  exact ⟨timing, deadline, rounds, closing, split, times, repeats, repeats.numbered named⟩

/-- A loop of three iterations. -/
def LoopBounds.threefold : LoopBounds := ⟨3, 0, some "i", 0⟩

/-- A body that tells the number of its iteration and then deletes it. -/
def Visit.telling : Visit Flow := siblings (Step.visits .logging
  [⟨"t", 1, .textMessage ⟨"", some "i"⟩⟩,
    ⟨"d", 2, .propertyAction ⟨.delete, "i", none, none, none⟩⟩])

/-- Each iteration has its own number, although the one before has deleted what it had. -/
theorem Visit.telling_numbers :
    let told := ((loop .threefold telling).run.run ⟨.ofProperties [], [], []⟩).tell Request.refused
    (LoopBounds.threefold.index = some "i" ∧ ∃ timing deadline rounds closing,
      told.1 = timing ++ (rounds.flatMap Round.history ++ closing) ∧
        Times LoopBounds.threefold.maxDuration timing deadline ∧
        Repeats (LoopBounds.threefold.Takes deadline telling)
          (LoopBounds.threefold.Quits deadline) 0 ⟨.ofProperties [], [], []⟩ rounds closing told.2.1
          told.2.2 ∧
        Round.Numbered "i" rounds) ∧
      told.2.2.log.map LogEntry.message = ["0", "1", "2"] :=
  ⟨⟨rfl, Visit.loop_numbers rfl (Program.yields_tell Request.refused _)⟩, by decide +kernel⟩

/-- There are answers with which a visit comes to an outcome. -/
theorem Visit.exists_yields {α : Type} (visit : Visit α) (frame : Frame) :
    ∃ (history : List (Exchange Unit)) (outcome : Except Abort α) (after : Frame),
      visit.Yields frame history outcome after :=
  ⟨_, _, _, Program.yields_tell Request.refused _⟩

/-- A loop of as many iterations as there can be. -/
def LoopBounds.vast : LoopBounds := ⟨4294967295, 0, some "i", 0⟩

/-- Behind the first half of its iterations, the loop gives a negative number to the next one. -/
theorem LoopBounds.vast_wraps :
    ∃ (history : List (Exchange Unit)) (outcome : Except Abort Flow) (after : Frame)
      (rounds : List (Round Unit)) (closing : List (Exchange Unit)) (round : Round Unit),
      (Visit.loop vast (Visit.siblings [])).Yields ⟨.ofProperties [], [], []⟩ history outcome
          after ∧
        Repeats (vast.Takes none (Visit.siblings [])) (vast.Quits none) 0 ⟨.ofProperties [], [], []⟩
          rounds closing outcome after ∧
        rounds[2147483648]? = some round ∧ round.start.HasNumber "i" (-2147483648) := by
  rcases (Visit.loop vast (Visit.siblings [])).exists_yields ⟨.ofProperties [], [], []⟩ with
    ⟨history, outcome, after, yields⟩
  rcases Visit.yields_loop yields with ⟨timing, deadline, rounds, closing, split, times, repeats⟩
  cases times with
  | timed hasDuration => exact absurd hasDuration (by decide)
  | untimed noDuration =>
      have goesOn : ∀ round ∈ rounds, round.outcome = .ok .next := by
        intro round roundMem
        rcases List.getElem?_of_mem roundMem with ⟨place, hasRound⟩
        rcases repeats.getElem? hasRound with ⟨frame, takes⟩
        exact (Visit.yields_pure.mp takes.yields).2.1
      have inside : 2147483648 < rounds.length := by
        rw [repeats.length_eq_limit rfl goesOn]
        decide +kernel
      rcases repeats.getElem? (List.getElem?_eq_getElem inside) with ⟨frame, takes⟩
      have hasNumber := takes.hasNumber rfl
      exact ⟨history, outcome, after, rounds, closing, _, yields, repeats,
        List.getElem?_eq_getElem inside, hasNumber⟩

end TestEngine
