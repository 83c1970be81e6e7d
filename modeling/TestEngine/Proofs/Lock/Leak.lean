import Mathlib.Data.List.Nodup
import TestEngine.Proofs.Lock.Fair

/-!
# Entries of the lock table

A call enters its name into the lock table, and only a guard that is dropped takes a name out again.
So an entry outlives the last call that used it when that call was cancelled and went away without a
guard, although it could have had the lock: then nobody uses the name any more, and its entry stays
until somebody obtains the lock once more and drops its guard. That is the only way in which an
entry is left behind.
-/

namespace TestEngine

variable {ω : Type}

/-! ### Names -/

namespace NameMap

variable {α : Type} {table : NameMap α} {name : String}

theorem contains_iff : table.contains name ↔ name ∈ table.names := isSome_lookup_iff

theorem names_insert (table : NameMap α) (name : String) (entry : α) :
    (table.insert name entry).names =
      if name ∈ table.names then table.names else table.names ++ [name] := by
  rw [insert, names, names]
  dsimp only
  induction table.entries with
  | nil => rfl
  | cons old rest ih =>
      rw [replace]
      split
      · rename_i isName
        simp [isName]
      · rename_i isNot
        rw [List.map_cons, List.map_cons, ih]
        simp only [List.mem_cons, Ne.symm isNot, false_or]
        split <;> rfl

theorem names_insert_of_get? {entry : α} (found : table.get? name = some entry) (next : α) :
    (table.insert name next).names = table.names := by
  rw [names_insert, if_pos (contains_iff.mp (by rw [contains, found]; rfl))]

theorem names_erase (table : NameMap α) (name : String) :
    (table.erase name).names = table.names.filter fun other => other ≠ name := by
  rw [erase, names, names, List.filter_map]
  rfl

end NameMap

namespace LockTable

variable {table : LockTable} {name : String}

/-- The names that have an entry. -/
def names (table : LockTable) : List String := table.entries.names

theorem size_eq (table : LockTable) : table.size = table.names.length :=
  (List.length_map _).symm

theorem names_call (table : LockTable) (name : String) (ticket : Ticket) :
    (table.call name ticket).names =
      if name ∈ table.names then table.names else table.names ++ [name] :=
  NameMap.names_insert ..

theorem names_giveUp (table : LockTable) (name : String) (ticket : Ticket) :
    (table.giveUp name ticket).names = table.names := by
  rw [giveUp]
  split
  · rfl
  · rename_i entry found
    exact NameMap.names_insert_of_get? found _

/-- A release takes the name out when nobody stands in line behind the one that has the lock. -/
theorem names_release (orderly : table.Orderly) (name : String) :
    (table.release name).names =
      if (table.line name).tail = [] then table.names.filter fun other => other ≠ name
      else table.names := by
  rw [release]
  split
  · rename_i notFound
    have isAbsent : name ∉ table.names := fun isPresent => by
      simpa [NameMap.contains, notFound] using NameMap.contains_iff.mpr isPresent
    rw [line_eq_nil notFound, List.tail_nil, if_pos rfl, List.filter_eq_self.mpr]
    exact fun other otherMem => decide_eq_true fun same => isAbsent (same ▸ otherMem)
  · rename_i entry found
    have ownerLeft := LockEntry.owner_eq_head?_line entry.isOrderly_handOn
    rw [LockEntry.line_handOn (orderly name entry found)] at ownerLeft
    have isFree : entry.handOn.owner = none ↔ (table.line name).tail = [] := by
      rw [line_eq_line found, ownerLeft, List.head?_eq_none_iff]
    dsimp only
    simp only [isFree]
    split
    · exact NameMap.names_erase ..
    · exact NameMap.names_insert_of_get? found _

theorem mem_names_of_line (inUse : table.line name ≠ []) : name ∈ table.names := by
  refine NameMap.contains_iff.mp (Option.isSome_iff_ne_none.mpr fun notFound => ?_)
  exact inUse (line_eq_nil notFound)

end LockTable

/-! ### Withdrawals -/

/-- Whether a call that is cancelled goes away with the event, before it tries for its lock. -/
def LockEvent.isWithdrawal : LockEvent → Bool
  | balk .. | abandon .. => true
  | _ => false

/-- The last thing that happened about a name was that a call went away. -/
def LeftBehind (events : List LockEvent) (name : String) : Prop :=
  ((events.filter fun event => event.name? = some name).getLast?).any LockEvent.isWithdrawal

namespace LeftBehind

variable {events : List LockEvent} {event : LockEvent} {name : String}

theorem append_iff (isAbout : event.name? = some name) :
    LeftBehind (events ++ [event]) name ↔ event.isWithdrawal := by
  rw [LeftBehind, List.filter_append, List.filter_cons_of_pos (by simpa using isAbout),
    List.filter_nil, List.getLast?_concat]
  rfl

theorem append_iff_of_ne (isNot : event.name? ≠ some name) :
    LeftBehind (events ++ [event]) name ↔ LeftBehind events name := by
  rw [LeftBehind, List.filter_append, List.filter_cons_of_neg (by simpa using isNot),
    List.filter_nil, List.append_nil]
  rfl

/-- Only a call that goes away leaves a name behind. -/
theorem exists_withdrawal (left : LeftBehind events name) :
    ∃ event ∈ events, event.isWithdrawal := by
  rw [LeftBehind, Option.any_eq_true] at left
  rcases left with ⟨event, isLast, withdraws⟩
  exact ⟨event, (List.mem_filter.mp (List.mem_of_getLast? isLast)).1, withdraws⟩

end LeftBehind

/-! ### Steps -/

namespace Locking

variable {locking next last : Locking ω} {events : List LockEvent}
  {event : LockEvent} {name : String} {before after : List LockCall} {call : LockCall}
  {alarm : Alarm}

theorem calls_enter (locking : Locking ω) (world : World ω) (name : String)
    (before : List LockCall) (call : LockCall) (after : List LockCall) :
    (locking.enter world name before call after).calls name = before ++ call :: after :=
  Function.update_self ..

theorem names_callOn (locking : Locking ω) (name : String) (timeout : Nat)
    (token : Option Nat) :
    (locking.callOn name timeout token).world.locks.names =
      (locking.world.callLock name).1.locks.names := by
  simp only [callOn, Session.tryLock, enter]
  split
  · rfl
  · split
    · rw [World.giveUpLock_locks, LockTable.names_giveUp]
    · split
      · rw [World.giveUpLock_locks, LockTable.names_giveUp]
      · rfl

theorem names_balkOn (locking : Locking ω) (name : String) (timeout : Nat) (token : Option Nat) :
    (locking.balkOn name timeout token).world.locks.names =
      (locking.world.callLock name).1.locks.names := by
  rw [balkOn, enter, World.balkAtLock, World.giveUpLock_locks, LockTable.names_giveUp]

theorem names_pollOn (locking : Locking ω) (name : String) (before : List LockCall)
    (call : LockCall) (alarm : Alarm) (after : List LockCall) :
    (locking.pollOn name before call alarm after).world.locks.names =
      locking.world.locks.names := by
  simp only [pollOn, Session.leaveLine, enter]
  split
  · rfl
  · rw [World.giveUpLock_locks, LockTable.names_giveUp]

theorem names_abandonOn (locking : Locking ω) (name : String) (before : List LockCall)
    (call : LockCall) (after : List LockCall) :
    (locking.abandonOn name before call after).world.locks.names =
      locking.world.locks.names := by
  rw [abandonOn, enter, World.giveUpLock_locks, LockTable.names_giveUp]

/-- A name that is entered by a call. -/
theorem mem_names_callLock {world : World ω} {other : String} :
    other ∈ (world.callLock name).1.locks.names ↔ other = name ∨ other ∈ world.locks.names := by
  refine (LockTable.names_call world.locks name world.nextTicket) ▸ ?_
  split
  · rename_i isOld
    exact ⟨.inr, fun isEither => isEither.elim (· ▸ isOld) id⟩
  · rw [List.mem_append, List.mem_singleton, or_comm]

theorem nodup_names_callLock {world : World ω} (distinct : world.locks.names.Nodup)
    (name : String) : (world.callLock name).1.locks.names.Nodup := by
  refine (LockTable.names_call world.locks name world.nextTicket) ▸ ?_
  split
  · exact distinct
  · rename_i isNew
    refine distinct.append (List.nodup_singleton name) fun other otherMem isName => ?_
    exact isNew (List.mem_singleton.mp isName ▸ otherMem)

namespace Ordered

theorem mem_names (ordered : locking.Ordered)
    (inUse : LockCall.standing (locking.calls name) ≠ []) : name ∈ locking.world.locks.names :=
  LockTable.mem_names_of_line (ordered.line name ▸ inUse)

theorem mem_names_of_isActive (ordered : locking.Ordered)
    (has : locking.calls name = before ++ call :: after) (active : call.fate.isActive) :
    name ∈ locking.world.locks.names := by
  refine ordered.mem_names fun nobody => ?_
  exact LockCall.standing_eq_nil_iff.mp nobody call (by simp [has]) active

/-- A call that is made and not cancelled is not the last one to leave. -/
theorem standing_callOn (ordered : locking.Ordered) (name : String)
    (timeout : Nat) (token : Option Nat) :
    LockCall.standing ((locking.callOn name timeout token).calls name) ≠ [] := by
  rcases ordered.callOn_eq name timeout token with ⟨world, entered, -⟩
  rw [entered, calls_enter, LockCall.standing_append]
  by_cases free : LockCall.standing (locking.calls name) = []
  · rw [askedFate, if_pos free, LockCall.standing_cons_of_isActive rfl]
    simp
  · simp [free]

/-- Nor is a call that is polled: if it is refused, then since somebody is in its way. -/
theorem standing_pollOn (ordered : locking.Ordered)
    (has : locking.calls name = before ++ call :: after) (waits : call.fate = .waiting alarm) :
    LockCall.standing ((locking.pollOn name before call alarm after).calls name) ≠ [] := by
  rcases ordered.pollOn_eq has waits with ⟨world, entered, -⟩
  rw [entered, calls_enter, LockCall.standing_append]
  by_cases free : LockCall.standing before = []
  · rw [polledFate, if_pos free, LockCall.standing_cons_of_isActive rfl]
    simp
  · simp [free]

/-- A guard that is dropped takes the name out if it was the last user. -/
theorem mem_names_dropOn (ordered : locking.Ordered)
    (has : locking.calls name = before ++ call :: after) {since : Nat}
    (holds : call.fate = .holding since) {other : String} :
    other ∈ (locking.dropOn name before call since after).world.locks.names ↔
      other ∈ locking.world.locks.names ∧ ¬(other = name ∧
        LockCall.standing ((locking.dropOn name before call since after).calls name) = []) := by
  have dropped := (ordered.dropOn has holds).line name
  have released : (locking.dropOn name before call since after).world.locks.line name =
      (locking.world.locks.line name).tail := by
    refine (congrFun (LockTable.line_release ordered.orderly name) name).trans ?_
    rw [Function.update_self]
  have left := LockTable.names_release ordered.orderly name
  rw [← released, dropped] at left
  change other ∈ (locking.world.locks.release name).names ↔ _
  rw [left]
  split
  · rename_i nobody
    simp [nobody]
  · rename_i somebody
    simp [somebody]

theorem nodup_names_dropOn (ordered : locking.Ordered) (distinct : locking.world.locks.names.Nodup)
    (name : String) (before : List LockCall) (call : LockCall) (since : Nat)
    (after : List LockCall) :
    (locking.dropOn name before call since after).world.locks.names.Nodup := by
  change (locking.world.locks.release name).names.Nodup
  rw [LockTable.names_release ordered.orderly name]
  split
  · exact distinct.filter _
  · exact distinct

end Ordered

/-- What happens about a name does nothing to the others. -/
theorem Step.mem_names_of_ne (step : locking.Step event next) (ordered : locking.Ordered)
    (isNot : event.name? ≠ some name) :
    next.calls name = locking.calls name ∧
      (name ∈ next.world.locks.names ↔ name ∈ locking.world.locks.names) := by
  have otherName {other : String} (isNot : some other ≠ some name) : name ≠ other :=
    fun same => isNot (same ▸ rfl)
  cases step with
  | call other timeout token =>
      refine ⟨Function.update_of_ne (otherName isNot) .., ?_⟩
      rw [names_callOn, mem_names_callLock, or_iff_right (otherName isNot)]
  | balk other timeout cancelled =>
      refine ⟨Function.update_of_ne (otherName isNot) .., ?_⟩
      rw [names_balkOn, mem_names_callLock, or_iff_right (otherName isNot)]
  | poll has waits awake =>
      exact ⟨Function.update_of_ne (otherName isNot) .., by rw [names_pollOn]⟩
  | abandon has waits cancelled =>
      exact ⟨Function.update_of_ne (otherName isNot) .., by rw [names_abandonOn]⟩
  | drop has holds =>
      refine ⟨Function.update_of_ne (otherName isNot) .., ?_⟩
      rw [ordered.mem_names_dropOn has holds,
        and_iff_left fun isSame => otherName isNot isSame.1]
  | cancel token => exact ⟨rfl, .rfl⟩
  | tick settled later inTime => exact ⟨rfl, .rfl⟩
  | elsewhere sameLocks sameClock sameTickets => exact ⟨rfl, by rw [sameLocks]⟩

/-- After an event about a name its entry is there if the name is used, or if a call went away. -/
theorem Step.mem_names (step : locking.Step event next) (ordered : locking.Ordered)
    (isAbout : event.name? = some name) :
    name ∈ next.world.locks.names ↔
      LockCall.standing (next.calls name) ≠ [] ∨ event.isWithdrawal := by
  have inUse : LockCall.standing (next.calls name) ≠ [] → name ∈ next.world.locks.names :=
    (ordered.step step).mem_names
  cases step with
  | call other timeout token =>
      obtain rfl := Option.some.inj isAbout
      have used := ordered.standing_callOn other timeout token
      exact ⟨fun _ => .inl used, fun _ => inUse used⟩
  | balk other timeout cancelled =>
      obtain rfl := Option.some.inj isAbout
      rw [names_balkOn, mem_names_callLock]
      exact ⟨fun _ => .inr rfl, fun _ => .inl rfl⟩
  | poll has waits awake =>
      obtain rfl := Option.some.inj isAbout
      have used := ordered.standing_pollOn has waits
      exact ⟨fun _ => .inl used, fun _ => inUse used⟩
  | abandon has waits cancelled =>
      obtain rfl := Option.some.inj isAbout
      rw [names_abandonOn]
      have isActive := LockFate.isActive_of_isWaiting waits
      exact ⟨fun _ => .inr rfl, fun _ => ordered.mem_names_of_isActive has isActive⟩
  | drop has holds =>
      obtain rfl := Option.some.inj isAbout
      refine ⟨fun isLeft => .inl fun nobody => ?_, fun used => inUse (used.resolve_right nofun)⟩
      exact ((ordered.mem_names_dropOn has holds).mp isLeft).2 ⟨rfl, nobody⟩
  | cancel token => exact nomatch isAbout
  | tick settled later inTime => exact nomatch isAbout
  | elsewhere sameLocks sameClock sameTickets => exact nomatch isAbout

theorem Step.nodup_names (step : locking.Step event next) (ordered : locking.Ordered)
    (distinct : locking.world.locks.names.Nodup) : next.world.locks.names.Nodup := by
  cases step with
  | call name timeout token =>
      rw [names_callOn]
      exact nodup_names_callLock distinct name
  | balk name timeout cancelled =>
      rw [names_balkOn]
      exact nodup_names_callLock distinct name
  | poll has waits awake => rwa [names_pollOn]
  | abandon has waits cancelled => rwa [names_abandonOn]
  | drop has holds => exact ordered.nodup_names_dropOn distinct ..
  | cancel token => exact distinct
  | tick settled later inTime => exact distinct
  | elsewhere sameLocks sameClock sameTickets => rwa [sameLocks]

/-! ### Histories -/

/-- What the names in the lock table are there for. -/
structure Named (events : List LockEvent) (locking : Locking ω) : Prop where
  distinct : locking.world.locks.names.Nodup
  mem_iff : ∀ name, name ∈ locking.world.locks.names ↔
    LockCall.standing (locking.calls name) ≠ [] ∨ LeftBehind events name

theorem named_initial {world : World ω} (noLocks : world.locks = .empty) :
    Named [] (initial world) := by
  have noNames : (initial world).world.locks.names = [] := by
    rw [initial, noLocks]
    rfl
  refine ⟨noNames ▸ List.nodup_nil, fun name => ?_⟩
  rw [noNames]
  simp [initial, LockCall.standing, LeftBehind]

theorem Named.step (named : Named events locking) (ordered : locking.Ordered)
    (step : locking.Step event next) : Named (events ++ [event]) next := by
  refine ⟨step.nodup_names ordered named.distinct, fun name => ?_⟩
  by_cases isAbout : event.name? = some name
  · rw [step.mem_names ordered isAbout, LeftBehind.append_iff isAbout]
  · rcases step.mem_names_of_ne ordered isAbout with ⟨sameCalls, sameNames⟩
    rw [sameNames, sameCalls, LeftBehind.append_iff_of_ne isAbout, named.mem_iff]

theorem History.named {world : World ω} (noLocks : world.locks = .empty)
    (history : History (initial world) events last) : Named events last := by
  induction history with
  | start => exact named_initial noLocks
  | step history step ih => exact ih.step (history.ordered (ordered_initial noLocks)) step

/-- Whether a name is held by a live guard or waited for. -/
def InUse (locking : Locking ω) (name : String) : Prop :=
  ∃ call ∈ locking.calls name, call.fate.isHolding ∨ call.fate.isWaiting

theorem inUse_iff : locking.InUse name ↔ LockCall.standing (locking.calls name) ≠ [] := by
  have isActive_iff (fate : LockFate) : fate.isActive ↔ fate.isHolding ∨ fate.isWaiting := by
    cases fate <;> simp [LockFate.isActive, LockFate.isHolding, LockFate.isWaiting]
  rw [InUse, Ne, LockCall.standing_eq_nil_iff]
  push Not
  exact exists_congr fun call => and_congr_right fun _ => (isActive_iff call.fate).symm

/-- Which names have an entry in the lock table after some events. -/
structure Leaks (events : List LockEvent) (last : Locking ω) : Prop where
  /-- A name has an entry while it is in use, and when a call that was cancelled was the last to be
  concerned with it. -/
  entry_iff : ∀ name, last.world.locks.entries.contains name ↔
    last.InUse name ∨ LeftBehind events name
  /-- The size of the table is the number of these names. -/
  size : ∃ names : List String, names.Nodup ∧ last.world.locks.size = names.length ∧
    ∀ name, name ∈ names ↔ last.InUse name ∨ LeftBehind events name
  /-- Unless a cancelled call goes away, the entries are those of the names in use. -/
  exact : (∀ event ∈ events, ¬event.isWithdrawal) →
    ∀ name, last.world.locks.entries.contains name ↔ last.InUse name
  /-- Then nothing is left when nobody holds a lock and nobody waits for one. -/
  cleared : (∀ event ∈ events, ¬event.isWithdrawal) → (∀ name, ¬last.InUse name) →
    last.world.locks.size = 0

/-- The lock table keeps the names in use, and those that cancelled calls leave behind. -/
theorem History.leaks {world : World ω} (noLocks : world.locks = .empty)
    (history : History (initial world) events last) : Leaks events last := by
  have named := history.named noLocks
  have mem_iff (name : String) : name ∈ last.world.locks.names ↔
      last.InUse name ∨ LeftBehind events name := by
    rw [named.mem_iff, inUse_iff]
  have noneLeft (noWithdrawal : ∀ event ∈ events, ¬event.isWithdrawal) (name : String) :
      ¬LeftBehind events name := by
    intro left
    rcases left.exists_withdrawal with ⟨event, eventMem, withdraws⟩
    exact noWithdrawal event eventMem withdraws
  constructor
  case entry_iff => exact fun name => NameMap.contains_iff.trans (mem_iff name)
  case size => exact ⟨_, named.distinct, last.world.locks.size_eq, mem_iff⟩
  case exact =>
    intro noWithdrawal name
    exact (NameMap.contains_iff.trans (mem_iff name)).trans
      (or_iff_left (noneLeft noWithdrawal name))
  case cleared =>
    intro noWithdrawal nobody
    rw [LockTable.size_eq, List.length_eq_zero_iff]
    refine List.eq_nil_iff_forall_not_mem.mpr fun name nameMem => ?_
    exact ((mem_iff name).mp nameMem).elim (nobody name) (noneLeft noWithdrawal name)

/-! ### A call that is cancelled -/

/-- A name that is called for and released is not left in the table. -/
theorem sample_leaks :
    ∃ last, History sample [.call "db" 5 none, .drop "db" 0] last ∧
      last.world.locks.size = 0 ∧ Leaks [.call "db" 5 none, .drop "db" 0] last := by
  let called := sample.callOn "db" 5 none
  let call : LockCall := ⟨0, 5, none, 0, .holding 0⟩
  have drops : called.Step (.drop "db" 0) (called.dropOn "db" [] call 0 []) :=
    .drop (show called.calls "db" = [] ++ call :: [] from rfl) rfl
  have history := (History.start.step (.call "db" 5 none)).step drops
  exact ⟨_, history, by decide +kernel, History.leaks rfl history⟩

/-- When nobody uses a name, no call can go on. -/
theorem settled_of_not_inUse (nobody : ∀ name, ¬locking.InUse name) : locking.Settled := by
  intro name call callMem awake
  rcases List.append_of_mem callMem with ⟨before, after, has⟩
  rcases exists_waiting_of_isAwake awake with ⟨alarm, waits⟩
  exact nobody name ⟨call, callMem, .inr (by rw [waits]; rfl)⟩

theorem Ordered.not_inUse (ordered : locking.Ordered) (name : String)
    (onlyName : locking.world.locks.names = [name])
    (nobody : LockCall.standing (locking.calls name) = []) (other : String) :
    ¬locking.InUse other := by
  intro inUse
  have isName := ordered.mem_names (inUse_iff.mp inUse)
  rw [onlyName, List.mem_singleton] at isName
  exact inUse_iff.mp inUse (isName ▸ nobody)

/-- A call that is cancelled before it is made can leave the name that it called for behind, and so
can a call that is cancelled just when the lock is handed to it. -/
theorem cancelled_leaves_entry :
    (∃ last, History sample [.cancel 1, .balk "db" 5 (some 1)] last ∧ last.Settled ∧
      (∀ name, ¬last.InUse name) ∧ last.world.locks.size = 1) ∧
    ∃ last, History sample
        [.call "db" 5 none, .call "db" 5 (some 1), .drop "db" 0, .cancel 1, .abandon "db" 1] last ∧
      last.Settled ∧ (∀ name, ¬last.InUse name) ∧ last.world.locks.size = 1 := by
  constructor
  · let cancelled : Locking Unit := { sample with cancelled := [1] }
    have balks : cancelled.Step (.balk "db" 5 (some 1)) (cancelled.balkOn "db" 5 (some 1)) :=
      .balk "db" 5 rfl
    have history := (History.start.step (.cancel 1)).step balks
    have nobody := (history.ordered (ordered_initial rfl)).not_inUse "db" (by decide +kernel)
      (by decide +kernel)
    exact ⟨_, history, settled_of_not_inUse nobody, nobody, by decide +kernel⟩
  · let two := (sample.callOn "db" 5 none).callOn "db" 5 (some 1)
    let call : LockCall := ⟨0, 5, none, 0, .holding 0⟩
    let next : LockCall := ⟨1, 5, some 1, 0, .waiting ⟨5, 0⟩⟩
    let dropped := two.dropOn "db" [] call 0 [next]
    let cancelled : Locking Unit := { dropped with cancelled := 1 :: dropped.cancelled }
    have drops : two.Step (.drop "db" 0) dropped :=
      .drop (show two.calls "db" = [] ++ call :: [next] from rfl) rfl
    have abandons : cancelled.Step (.abandon "db" 1)
        (cancelled.abandonOn "db" [_] next []) :=
      .abandon (show cancelled.calls "db" = [{ call with fate := .dropped 0 }] ++ next :: []
        from rfl) rfl rfl
    have called : History sample [.call "db" 5 none, .call "db" 5 (some 1)] two :=
      (History.start.step (.call "db" 5 none)).step (.call "db" 5 (some 1))
    have history := ((called.step drops).step (.cancel 1)).step abandons
    have nobody := (history.ordered (ordered_initial rfl)).not_inUse "db" (by decide +kernel)
      (by decide +kernel)
    exact ⟨_, history, settled_of_not_inUse nobody, nobody, by decide +kernel⟩

end Locking

end TestEngine
