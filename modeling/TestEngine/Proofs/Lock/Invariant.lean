import TestEngine.Proofs.Lock.History

/-!
# The invariant of locks

The line of a name is made of the calls that are active, in the order in which they were made, so
the table says nothing that the calls do not say. A call that has obtained its lock has no active
call before it, and no call waits longer than it wanted to.
-/

namespace TestEngine

variable {ω : Type}

/-! ### Lines of calls -/

namespace LockCall

/-- The calls of a list that are active, by their tickets. -/
def standing (calls : List LockCall) : List Ticket :=
  (calls.filter fun call => call.fate.isActive).map ticket

variable {before after : List LockCall} {call : LockCall}

theorem standing_append (before after : List LockCall) :
    standing (before ++ after) = standing before ++ standing after := by
  rw [standing, List.filter_append, List.map_append]
  rfl

theorem standing_cons_of_isActive (active : call.fate.isActive) (after : List LockCall) :
    standing (call :: after) = call.ticket :: standing after := by
  simp [standing, active]

theorem standing_cons_of_not_isActive (isOver : call.fate.isActive = false)
    (after : List LockCall) :
    standing (call :: after) = standing after := by
  simp [standing, isOver]

theorem standing_concat_of_isActive (active : call.fate.isActive) (before : List LockCall) :
    standing (before ++ [call]) = standing before ++ [call.ticket] := by
  rw [standing_append, standing_cons_of_isActive active]
  rfl

theorem standing_concat_of_not_isActive (isOver : call.fate.isActive = false)
    (before : List LockCall) :
    standing (before ++ [call]) = standing before := by
  rw [standing_append, standing_cons_of_not_isActive isOver]
  exact List.append_nil _

theorem standing_sublist (calls : List LockCall) : (standing calls).Sublist (calls.map ticket) :=
  List.filter_sublist.map ticket

theorem standing_eq_nil_iff {calls : List LockCall} :
    standing calls = [] ↔ ∀ call ∈ calls, ¬call.fate.isActive := by
  rw [standing, List.map_eq_nil_iff, List.filter_eq_nil_iff]

/-- A call that is over leaves the line. -/
theorem standing_filter_ticket (distinct : ((before ++ call :: after).map ticket).Nodup)
    {fate : LockFate} (isOver : fate.isActive = false) :
    (standing (before ++ call :: after)).filter (fun standing => standing ≠ call.ticket) =
      standing (before ++ { call with fate } :: after) := by
  rw [List.map_append, List.map_cons, List.nodup_append, List.nodup_cons] at distinct
  rcases distinct with ⟨-, ⟨notAfter, -⟩, notBefore⟩
  have beforeStays : (standing before).filter (fun standing => standing ≠ call.ticket) =
      standing before := by
    refine List.filter_eq_self.mpr fun other otherMem => decide_eq_true ?_
    exact notBefore other ((standing_sublist before).subset otherMem) _ (List.mem_cons_self ..)
  have afterStays : (standing after).filter (fun standing => standing ≠ call.ticket) =
      standing after := by
    refine List.filter_eq_self.mpr fun other otherMem => decide_eq_true fun same => ?_
    exact notAfter (same ▸ (standing_sublist after).subset otherMem)
  have callLeaves : standing ({ call with fate } :: after) = standing after :=
    standing_cons_of_not_isActive isOver after
  rw [standing_append, standing_append, List.filter_append, beforeStays, callLeaves]
  congr 1
  by_cases active : call.fate.isActive
  · rw [standing_cons_of_isActive active, List.filter_cons_of_neg (by simp), afterStays]
  · rw [standing_cons_of_not_isActive (Bool.not_eq_true _ ▸ active), afterStays]

/-- A call that goes on in line stays where it is. -/
theorem standing_stays (active : call.fate.isActive) {fate : LockFate} (isActive : fate.isActive) :
    standing (before ++ { call with fate } :: after) = standing (before ++ call :: after) := by
  have callStays : standing ({ call with fate } :: after) = call.ticket :: standing after :=
    standing_cons_of_isActive isActive after
  rw [standing_append, standing_append, standing_cons_of_isActive active, callStays]

/-- A call whose moments are as it wanted them. -/
structure Timely (clock : Nat) (call : LockCall) : Prop where
  started : call.start ≤ clock
  waiting : ∀ alarm, call.fate = .waiting alarm →
    alarm.due = call.start + call.timeout ∧ clock ≤ alarm.due
  ended : ∀ moment, call.fate.endedAt? = some moment →
    call.start ≤ moment ∧ moment ≤ call.start + call.timeout

end LockCall

/-! ### The invariant -/

namespace Locking

/-- What calls and lock table have to do with each other. -/
structure Ordered (locking : Locking ω) : Prop where
  orderly : locking.world.locks.Orderly
  line : ∀ name, locking.world.locks.line name = LockCall.standing (locking.calls name)
  fresh : ∀ name, ∀ call ∈ locking.calls name, call.ticket < locking.world.nextTicket
  distinct : ∀ name, ((locking.calls name).map LockCall.ticket).Nodup
  inTurn : ∀ name, (locking.calls name).Pairwise fun earlier later =>
    later.fate.isGranted → ¬earlier.fate.isActive
  timely : ∀ name, ∀ call ∈ locking.calls name, call.Timely locking.world.clock
  grants : ∀ name, (locking.grants name).Pairwise (· < ·)
  granted : ∀ name place, place ∈ locking.grants name ↔
    ∃ call, (locking.calls name)[place]? = some call ∧ call.fate.isGranted

variable {locking : Locking ω} {world : World ω} {name : String} {before after : List LockCall}
  {call : LockCall}

/-- Entering a call keeps the invariant if the line of its name is the line of its calls. -/
theorem Ordered.enter (ordered : locking.Ordered) (orderly : world.locks.Orderly)
    (line : world.locks.line = Function.update locking.world.locks.line name
      (LockCall.standing (before ++ call :: after)))
    (sameClock : world.clock = locking.world.clock)
    (tickets : locking.world.nextTicket ≤ world.nextTicket)
    (fresh : call.ticket < world.nextTicket)
    (distinct : ((before ++ call :: after).map LockCall.ticket).Nodup)
    (inTurn : (before ++ call :: after).Pairwise fun earlier later =>
      later.fate.isGranted → ¬earlier.fate.isActive)
    (timely : call.Timely locking.world.clock)
    (others : ∀ other ∈ before ++ after, other ∈ locking.calls name)
    (places : ∀ place, place ≠ before.length →
      (before ++ call :: after)[place]? = (locking.calls name)[place]?)
    (granted : call.fate.isGranted ↔
      call.fate.isHolding ∨ before.length ∈ locking.grants name)
    (isLatest : call.fate.isHolding → ∀ place ∈ locking.grants name, place < before.length) :
    (locking.enter world name before call after).Ordered := by
  have callOrOther {other : LockCall} (otherMem : other ∈ before ++ call :: after) :
      other = call ∨ other ∈ locking.calls name := by
    simp only [List.mem_append, List.mem_cons] at otherMem others
    rcases otherMem with isBefore | isCall | isAfter
    · exact .inr (others other (.inl isBefore))
    · exact .inl isCall
    · exact .inr (others other (.inr isAfter))
  refine ⟨orderly, ?line, ?fresh, ?distinct, ?inTurn, ?timely, ?grants, ?granted⟩
  case line =>
    simp only [Locking.enter, line]
    intro other
    by_cases same : other = name
    · subst same
      rw [Function.update_self, Function.update_self]
    · rw [Function.update_of_ne same, Function.update_of_ne same, ordered.line]
  case fresh =>
    refine (Function.forall_update_iff _ fun _ (calls : List LockCall) =>
      ∀ other ∈ calls, other.ticket < world.nextTicket).mpr ⟨fun other otherMem => ?_, ?_⟩
    · rcases callOrOther otherMem with rfl | old
      · exact fresh
      · exact Nat.lt_of_lt_of_le (ordered.fresh name other old) tickets
    · exact fun name _ other otherMem =>
        Nat.lt_of_lt_of_le (ordered.fresh name other otherMem) tickets
  case distinct =>
    exact (Function.forall_update_iff _ fun _ (calls : List LockCall) =>
      (calls.map LockCall.ticket).Nodup).mpr ⟨distinct, fun name _ => ordered.distinct name⟩
  case inTurn =>
    exact (Function.forall_update_iff _ fun _ (calls : List LockCall) =>
      calls.Pairwise fun earlier later => later.fate.isGranted → ¬earlier.fate.isActive).mpr
      ⟨inTurn, fun name _ => ordered.inTurn name⟩
  case timely =>
    refine (Function.forall_update_iff _ fun _ (calls : List LockCall) =>
      ∀ other ∈ calls, other.Timely world.clock).mpr ⟨fun other otherMem => ?_, ?_⟩
    · rw [sameClock]
      rcases callOrOther otherMem with rfl | old
      · exact timely
      · exact ordered.timely name other old
    · rw [sameClock]
      exact fun name _ => ordered.timely name
  case grants =>
    intro other
    simp only [Locking.enter]
    split
    · rename_i holds
      refine (Function.forall_update_iff _ fun _ (places : List Nat) =>
        places.Pairwise (· < ·)).mpr ⟨?_, fun name _ => ordered.grants name⟩ other
      rw [List.pairwise_append]
      refine ⟨ordered.grants name, List.pairwise_singleton .., ?_⟩
      intro place placeMem latest isLast
      rw [List.mem_singleton.mp isLast]
      exact isLatest holds place placeMem
    · exact ordered.grants other
  case granted =>
    have here (place : Nat) : place ∈ (locking.enter world name before call after).grants name ↔
        ∃ other, (before ++ call :: after)[place]? = some other ∧ other.fate.isGranted := by
      have grants : place ∈ (locking.enter world name before call after).grants name ↔
          place ∈ locking.grants name ∨ call.fate.isHolding ∧ place = before.length := by
        simp only [Locking.enter]
        split
        · rename_i holds
          simp [holds]
        · rename_i holdsNot
          simp [holdsNot]
      rw [grants]
      by_cases isHere : place = before.length
      · subst isHere
        simp [granted, or_comm]
      · rw [places place isHere, ordered.granted]
        simp [isHere]
    intro other place
    by_cases same : other = name
    · subst same
      rw [here place]
      simp [Locking.enter]
    · have grants : (locking.enter world name before call after).grants other =
          locking.grants other := by
        simp only [Locking.enter]
        split
        · exact Function.update_of_ne same ..
        · rfl
      rw [grants, ordered.granted]
      simp [Locking.enter, same]

/-- A new call keeps the invariant. -/
theorem Ordered.append (ordered : locking.Ordered) (orderly : world.locks.Orderly)
    (line : world.locks.line = Function.update locking.world.locks.line name
      (LockCall.standing (locking.calls name ++ [call])))
    (sameClock : world.clock = locking.world.clock)
    (isNew : call.ticket = locking.world.nextTicket)
    (nextTicket : world.nextTicket = locking.world.nextTicket + 1)
    (timely : call.Timely locking.world.clock)
    (turn : call.fate.isGranted →
      call.fate.isHolding ∧ ∀ earlier ∈ locking.calls name, ¬earlier.fate.isActive) :
    (locking.enter world name (locking.calls name) call []).Ordered := by
  have inBounds {place : Nat} (placeMem : place ∈ locking.grants name) :
      place < (locking.calls name).length := by
    rcases (ordered.granted name place).mp placeMem with ⟨other, hasOther, -⟩
    exact (List.getElem?_eq_some_iff.mp hasOther).1
  have fresh : call.ticket < world.nextTicket := by
    rw [isNew, nextTicket]
    exact Nat.lt_succ_self _
  refine ordered.enter orderly line sameClock (nextTicket ▸ Nat.le_succ _) fresh ?distinct ?inTurn
    timely ?others ?places ?granted fun _ _ placeMem => inBounds placeMem
  case distinct =>
    rw [List.map_append, List.nodup_append]
    refine ⟨ordered.distinct name, List.nodup_cons.mpr ⟨List.not_mem_nil, List.nodup_nil⟩, ?_⟩
    intro ticket ticketMem new isNewTicket
    rcases List.mem_map.mp ticketMem with ⟨other, otherMem, rfl⟩
    have older := ordered.fresh name other otherMem
    rw [List.map_singleton, List.mem_singleton] at isNewTicket
    rw [isNewTicket, isNew]
    exact Nat.ne_of_lt older
  case inTurn =>
    rw [List.pairwise_append]
    refine ⟨ordered.inTurn name, List.pairwise_singleton .., ?_⟩
    intro earlier earlierMem later isCall
    rw [List.mem_singleton.mp isCall]
    exact fun granted => (turn granted).2 earlier earlierMem
  case others => simp
  case places =>
    intro place placeNe
    rcases Nat.lt_or_gt_of_ne placeNe with placeLt | placeGt
    · exact List.getElem?_append_left placeLt
    · rw [List.getElem?_eq_none (Nat.le_of_lt placeGt), List.getElem?_eq_none]
      rw [List.length_append]
      exact placeGt
  case granted =>
    constructor
    · exact fun granted => .inl (turn granted).1
    · rintro (holds | placeMem)
      · cases hasFate : call.fate <;> simp_all [LockFate.isHolding, LockFate.isGranted]
      · exact absurd (inBounds placeMem) (Nat.lt_irrefl _)

/-- A call that goes on to another fate keeps the invariant. -/
theorem Ordered.replace (ordered : locking.Ordered) (orderly : world.locks.Orderly)
    (has : locking.calls name = before ++ call :: after) (active : call.fate.isActive)
    {fate : LockFate}
    (line : world.locks.line = Function.update locking.world.locks.line name
      (LockCall.standing (before ++ { call with fate } :: after)))
    (sameClock : world.clock = locking.world.clock)
    (sameTickets : world.nextTicket = locking.world.nextTicket)
    (timely : LockCall.Timely locking.world.clock { call with fate })
    (granted : fate.isGranted ↔ fate.isHolding ∨ call.fate.isGranted)
    (notYet : fate.isHolding → ¬call.fate.isGranted)
    (turn : fate.isGranted → ∀ earlier ∈ before, ¬earlier.fate.isActive) :
    (locking.enter world name before { call with fate } after).Ordered := by
  have distinct := ordered.distinct name
  have inTurn := ordered.inTurn name
  have fresh := ordered.fresh name call (by simp [has])
  rw [has] at distinct inTurn
  rw [List.pairwise_append, List.pairwise_cons] at inTurn
  rcases inTurn with ⟨beforeInTurn, ⟨callInTurn, afterInTurn⟩, acrossInTurn⟩
  have placed : before.length ∈ locking.grants name ↔ call.fate.isGranted := by
    rw [ordered.granted, has]
    simp
  refine ordered.enter orderly line sameClock (Nat.le_of_eq sameTickets.symm)
    (sameTickets ▸ fresh) ?distinct ?inTurn timely ?others ?places ?granted ?latest
  case distinct => simpa using distinct
  case inTurn =>
    rw [List.pairwise_append, List.pairwise_cons]
    refine ⟨beforeInTurn, ⟨fun later laterMem granted => ?_, afterInTurn⟩,
      fun earlier earlierMem later laterMem => ?_⟩
    · exact absurd active (callInTurn later laterMem granted)
    · rcases List.mem_cons.mp laterMem with rfl | isAfter
      · exact fun granted => turn granted earlier earlierMem
      · exact acrossInTurn earlier earlierMem later (List.mem_cons_of_mem _ isAfter)
  case others =>
    intro other otherMem
    rw [has, List.mem_append, List.mem_cons]
    exact (List.mem_append.mp otherMem).imp id .inr
  case places =>
    intro place placeNe
    rw [has]
    rcases Nat.lt_or_gt_of_ne placeNe with placeLt | placeGt
    · rw [List.getElem?_append_left placeLt, List.getElem?_append_left placeLt]
    · rw [List.getElem?_append_right (Nat.le_of_lt placeGt),
        List.getElem?_append_right (Nat.le_of_lt placeGt)]
      rcases Nat.exists_eq_add_of_lt placeGt with ⟨distance, rfl⟩
      rw [Nat.add_assoc, Nat.add_sub_cancel_left, List.getElem?_cons_succ, List.getElem?_cons_succ]
  case granted =>
    rw [placed]
    exact granted
  case latest =>
    intro holds place placeMem
    rcases (ordered.granted name place).mp placeMem with ⟨other, hasOther, otherGranted⟩
    rcases Nat.lt_trichotomy place before.length with placeLt | rfl | placeGt
    · exact placeLt
    · exact absurd (placed.mp placeMem) (notYet holds)
    · rw [has, List.getElem?_append_right (Nat.le_of_lt placeGt)] at hasOther
      rcases Nat.exists_eq_add_of_lt placeGt with ⟨distance, rfl⟩
      rw [Nat.add_assoc, Nat.add_sub_cancel_left, List.getElem?_cons_succ] at hasOther
      exact absurd active (callInTurn other (List.mem_of_getElem? hasOther) otherGranted)

end Locking

end TestEngine
