import TestEngine.Proofs.Lock.Leak

/-!
# The mutexes of a lock table

A lock table is made of mutexes. The table has a handle of one mutex for each name, and every call
that waits and every guard that is live keeps another handle of the mutex that the table had when
the call was made. A mutex knows how many handles of it there are, but not whose they are. When a
guard is dropped the mutex of its name is taken out of the table if the table's handle is the only
one that is left, and other calls may be made, cancelled and answered before that is looked at.

It has to be shown that two calls for one name never lock different mutexes. The table's handle of a
mutex is the only one exactly if no call goes by its name, in whatever order all this happens, so
the mutex of a name that somebody uses is never taken out. That is why an entry can stand for a
mutex: the mutexes do what the table of entries says.
-/

namespace TestEngine

variable {ω : Type}

/-! ### Mutexes -/

/-- A reference to a mutex. No two mutexes that are ever made share one. -/
abbrev Handle := Nat

/-- A lock, with those that have it and wait for it. -/
structure Mutex where
  entry : LockEntry
  /-- How many handles of the mutex there are. -/
  count : Nat

namespace Mutex

/-- A mutex of which there is one handle. -/
def new : Mutex := ⟨⟨none, []⟩, 1⟩

def clone (mutex : Mutex) : Mutex := { mutex with count := mutex.count + 1 }

def letGo (mutex : Mutex) : Mutex := { mutex with count := mutex.count - 1 }

def join (mutex : Mutex) (ticket : Ticket) : Mutex :=
  { mutex with entry := mutex.entry.join ticket }

def leave (mutex : Mutex) (ticket : Ticket) : Mutex :=
  { mutex with entry := mutex.entry.leave ticket }

def unlock (mutex : Mutex) : Mutex := { mutex with entry := mutex.entry.handOn }

/-- The calls in line are those that have a handle, and the table has one more. -/
structure Serves (mutex : Mutex) (tickets : List Ticket) : Prop where
  orderly : mutex.entry.IsOrderly
  line : mutex.entry.line = tickets
  count : mutex.count = tickets.length + 1

variable {mutex : Mutex} {tickets : List Ticket} {ticket : Ticket}

theorem serves_new : new.Serves [] := ⟨fun _ => rfl, rfl, rfl⟩

theorem leave_eq_unlock (owns : mutex.entry.owner = some ticket) :
    mutex.leave ticket = mutex.unlock := by
  rw [leave, LockEntry.leave, if_pos owns, unlock]

namespace Serves

theorem join (serves : mutex.Serves tickets) (ticket : Ticket) :
    (mutex.clone.join ticket).Serves (tickets ++ [ticket]) where
  orderly := LockEntry.isOrderly_join _ ticket
  line := serves.line ▸ LockEntry.line_join serves.orderly ticket
  count := by
    rw [List.length_append, List.length_singleton, ← serves.count]
    rfl

theorem leave (serves : mutex.Serves tickets) (distinct : tickets.Nodup)
    (ticketMem : ticket ∈ tickets) :
    (mutex.leave ticket).letGo.Serves (tickets.filter fun other => other ≠ ticket) where
  orderly := LockEntry.isOrderly_leave serves.orderly ticket
  line := by
    have lineDistinct : mutex.entry.line.Nodup := serves.line ▸ distinct
    exact serves.line ▸ LockEntry.line_leave serves.orderly lineDistinct ticket
  count := by
    have left : (tickets.filter fun other => other ≠ ticket) = tickets.erase ticket := by
      simp [distinct.erase_eq_filter, bne, beq_eq_decide]
    rw [left, List.length_erase_of_mem ticketMem,
      Nat.sub_add_cancel (List.length_pos_of_mem ticketMem)]
    exact Nat.sub_eq_of_eq_add serves.count

theorem owner_eq_head? (serves : mutex.Serves tickets) : mutex.entry.owner = tickets.head? :=
  serves.line ▸ LockEntry.owner_eq_head?_line serves.orderly

theorem count_eq_one_iff (serves : mutex.Serves tickets) : mutex.count = 1 ↔ tickets = [] := by
  rw [serves.count, Nat.add_eq_right, List.length_eq_zero_iff]

end Serves

end Mutex

/-! ### Tables of mutexes -/

/-- A call that waits or whose guard is live, with the handle that it keeps. -/
structure Holder where
  name : String
  ticket : Ticket
  handle : Handle

namespace Holder

/-- The calls that go by a name. -/
def tickets (holders : List Holder) (name : String) : List Ticket :=
  (holders.filter fun holder => holder.name = name).map ticket

variable {holders : List Holder} {name : String} {ticket : Ticket}

theorem mem_tickets_iff : ticket ∈ tickets holders name ↔
    ∃ holder ∈ holders, holder.name = name ∧ holder.ticket = ticket := by
  simp [tickets, and_assoc]

theorem tickets_eq_nil_iff :
    tickets holders name = [] ↔ ∀ holder ∈ holders, holder.name ≠ name := by
  simp [tickets]

theorem tickets_append (holders : List Holder) (holder : Holder) (name : String) :
    tickets (holders ++ [holder]) name =
      tickets holders name ++ if holder.name = name then [holder.ticket] else [] := by
  rw [tickets, List.filter_append, List.map_append]
  split
  · rename_i same
    simp [tickets, same]
  · rename_i notSame
    simp [tickets, notSame]

theorem tickets_filter (holders : List Holder) (ticket : Ticket) (name : String) :
    tickets (holders.filter fun holder => holder.ticket ≠ ticket) name =
      (tickets holders name).filter fun other => other ≠ ticket := by
  simp only [tickets, List.filter_map, List.filter_filter]
  congr 2
  funext holder
  exact Bool.and_comm ..

theorem nodup_tickets (distinct : (holders.map Holder.ticket).Nodup) (name : String) :
    (tickets holders name).Nodup :=
  distinct.sublist (List.filter_sublist.map _)

end Holder

/-- A table that has a handle of a mutex for each name, and the handles that others have. -/
structure MutexTable where
  mutexes : Handle → Mutex
  /-- The handle of the mutex that is made next. -/
  next : Handle
  /-- The handles that the table has itself. -/
  handles : NameMap Handle
  /-- Those that have the other handles, in the order in which they called. -/
  holders : List Holder

namespace MutexTable

def empty : MutexTable := ⟨fun _ => .new, 0, .empty, []⟩

/-- Changes a mutex and who holds the handles. -/
def alter (table : MutexTable) (handle : Handle) (change : Mutex → Mutex)
    (holders : List Holder) : MutexTable where
  mutexes := Function.update table.mutexes handle (change (table.mutexes handle))
  next := table.next
  handles := table.handles
  holders := holders

/-- Makes the mutex of a name. -/
def make (table : MutexTable) (name : String) : MutexTable where
  mutexes := Function.update table.mutexes table.next .new
  next := table.next + 1
  handles := table.handles.insert name table.next
  holders := table.holders

/-- Takes the mutex of a name out. -/
def remove (table : MutexTable) (name : String) (handle : Handle) : MutexTable :=
  { table.alter handle Mutex.letGo table.holders with handles := table.handles.erase name }

/-- Makes a mutex for a name that has none. -/
def enter (table : MutexTable) (name : String) : MutexTable :=
  match table.handles.get? name with
  | some _ => table
  | none => table.make name

/-- The handle that a call for a name gets. -/
def handleFor (table : MutexTable) (name : String) : Handle :=
  (table.handles.get? name).getD table.next

def call (table : MutexTable) (name : String) (ticket : Ticket) : MutexTable :=
  let handle := table.handleFor name
  let entered := table.enter name
  entered.alter handle (fun mutex => mutex.clone.join ticket)
    (entered.holders ++ [⟨name, ticket, handle⟩])

/-- A call that goes away with its handle before it tries for the lock. -/
def balk (table : MutexTable) (name : String) : MutexTable :=
  let entered := table.enter name
  entered.alter (table.handleFor name) (fun mutex => mutex.clone.letGo) entered.holders

def giveUp (table : MutexTable) (holder : Holder) : MutexTable :=
  table.alter holder.handle (fun mutex => (mutex.leave holder.ticket).letGo)
    (table.holders.filter fun other => other.ticket ≠ holder.ticket)

/-- The first half of a guard's end. -/
def unlock (table : MutexTable) (holder : Holder) : MutexTable :=
  table.alter holder.handle (fun mutex => mutex.unlock.letGo)
    (table.holders.filter fun other => other.ticket ≠ holder.ticket)

/-- The second half: a mutex of which nobody else has a handle is taken out. -/
def sweep (table : MutexTable) (name : String) : MutexTable :=
  match table.handles.get? name with
  | none => table
  | some handle =>
    if (table.mutexes handle).count = 1 then table.remove name handle else table

def Owns (table : MutexTable) (holder : Holder) : Prop :=
  (table.mutexes holder.handle).entry.owner = some holder.ticket

/-- What happens to mutexes. A sweep comes after the guard's mutex was unlocked, but it may come
late, when others have called for the name or even taken its mutex out. -/
inductive Step (table : MutexTable) : MutexTable → Prop
  | call (name : String) {ticket : Ticket}
      (isNew : ∀ holder ∈ table.holders, holder.ticket ≠ ticket) :
      Step table (table.call name ticket)
  | balk (name : String) : Step table (table.balk name)
  | giveUp {holder : Holder} (holderMem : holder ∈ table.holders) :
      Step table (table.giveUp holder)
  | unlock {holder : Holder} (holderMem : holder ∈ table.holders) (owns : table.Owns holder) :
      Step table (table.unlock holder)
  | sweep (name : String) : Step table (table.sweep name)

/-- The tables that can come about. -/
inductive Reached : MutexTable → Prop
  | empty : Reached empty
  | step {table next : MutexTable} (reached : Reached table) (step : table.Step next) :
      Reached next

variable {table next : MutexTable} {name : String} {ticket : Ticket} {handle : Handle}
  {holder : Holder}

@[simp]
theorem enter_holders (table : MutexTable) (name : String) :
    (table.enter name).holders = table.holders := by
  rw [enter]
  split <;> rfl

theorem get?_make (table : MutexTable) (name other : String) :
    (table.make name).handles.get? other =
      if other = name then some table.next else table.handles.get? other :=
  NameMap.get?_insert ..

theorem get?_remove (table : MutexTable) (name other : String) (handle : Handle) :
    (table.remove name handle).handles.get? other =
      if other = name then none else table.handles.get? other :=
  NameMap.get?_erase ..

theorem get?_enter (table : MutexTable) (name : String) :
    (table.enter name).handles.get? name = some (table.handleFor name) := by
  rw [enter, handleFor]
  split
  · rename_i handle found
    rw [found, Option.getD_some]
  · rename_i absent
    rw [absent, get?_make, if_pos rfl, Option.getD_none]

theorem mutexes_alter_self (table : MutexTable) (handle : Handle) (change : Mutex → Mutex)
    (holders : List Holder) :
    (table.alter handle change holders).mutexes handle = change (table.mutexes handle) :=
  Function.update_self ..

theorem mutexes_alter_of_ne {other : Handle} (isOther : other ≠ handle) {change : Mutex → Mutex}
    {holders : List Holder} :
    (table.alter handle change holders).mutexes other = table.mutexes other :=
  Function.update_of_ne isOther ..

/-- A handle that is let go of at once leaves the mutex as it was. -/
theorem balk_eq_enter (table : MutexTable) (name : String) :
    table.balk name = table.enter name := by
  rw [balk, alter]
  have same (mutex : Mutex) : mutex.clone.letGo = mutex := rfl
  simp only [same, Function.update_eq_self]

theorem mutexes_make_next (table : MutexTable) (name : String) :
    (table.make name).mutexes table.next = .new :=
  Function.update_self ..

theorem mutexes_make_of_ne (isOld : handle ≠ table.next) :
    (table.make name).mutexes handle = table.mutexes handle :=
  Function.update_of_ne isOld ..

theorem mutexes_remove_of_ne {other : Handle} (isOther : other ≠ handle) :
    (table.remove name handle).mutexes other = table.mutexes other :=
  Function.update_of_ne isOther ..

/-! ### The invariant -/

/-- The handles of a table and its holders belong together. -/
structure Sound (table : MutexTable) : Prop where
  /-- No two names have one mutex. -/
  apart : ∀ name other handle, table.handles.get? name = some handle →
    table.handles.get? other = some handle → name = other
  made : ∀ name handle, table.handles.get? name = some handle → handle < table.next
  /-- The mutex that a holder goes by is still that of its name. -/
  current : ∀ holder ∈ table.holders, table.handles.get? holder.name = some holder.handle
  serves : ∀ name handle, table.handles.get? name = some handle →
    (table.mutexes handle).Serves (Holder.tickets table.holders name)
  distinct : (table.holders.map Holder.ticket).Nodup

namespace Sound

theorem tickets_eq_nil (sound : table.Sound) (absent : table.handles.get? name = none) :
    Holder.tickets table.holders name = [] := by
  refine Holder.tickets_eq_nil_iff.mpr fun holder holderMem same => ?_
  have found := sound.current holder holderMem
  rw [same, absent] at found
  exact nomatch found

theorem handle_ne (sound : table.Sound) (found : table.handles.get? name = some handle)
    {other : String} {otherHandle : Handle}
    (hasOther : table.handles.get? other = some otherHandle) (notName : other ≠ name) :
    otherHandle ≠ handle := by
  rintro rfl
  exact notName (sound.apart other name otherHandle hasOther found)

theorem make (sound : table.Sound) (absent : table.handles.get? name = none) :
    (table.make name).Sound := by
  have isOld {other : String} {handle : Handle}
      (found : table.handles.get? other = some handle) : handle ≠ table.next :=
    Nat.ne_of_lt (sound.made other handle found)
  have cases_get? {other : String} {handle : Handle}
      (found : (table.make name).handles.get? other = some handle) :
      other = name ∧ handle = table.next ∨ table.handles.get? other = some handle := by
    rw [get?_make] at found
    split at found
    · rename_i same
      exact .inl ⟨same, (Option.some.inj found).symm⟩
    · exact .inr found
  refine ⟨?apart, ?made, ?current, ?serves, sound.distinct⟩
  case apart =>
    intro first second handle hasFirst hasSecond
    rcases cases_get? hasFirst with ⟨rfl, rfl⟩ | oldFirst
    · rcases cases_get? hasSecond with ⟨rfl, -⟩ | oldSecond
      · rfl
      · exact absurd rfl (isOld oldSecond)
    · rcases cases_get? hasSecond with ⟨-, rfl⟩ | oldSecond
      · exact absurd rfl (isOld oldFirst)
      · exact sound.apart first second handle oldFirst oldSecond
  case made =>
    intro other handle found
    rcases cases_get? found with ⟨-, rfl⟩ | old
    · exact Nat.lt_succ_self _
    · exact Nat.lt_succ_of_lt (sound.made other handle old)
  case current =>
    intro holder holderMem
    have found := sound.current holder holderMem
    have notName : holder.name ≠ name := by
      rintro same
      rw [same, absent] at found
      exact nomatch found
    rw [get?_make, if_neg notName, found]
  case serves =>
    intro other handle found
    rcases cases_get? found with ⟨rfl, rfl⟩ | old
    · have nobody : Holder.tickets (table.make other).holders other = [] :=
        sound.tickets_eq_nil absent
      rw [nobody, mutexes_make_next]
      exact Mutex.serves_new
    · rw [mutexes_make_of_ne (isOld old)]
      exact sound.serves other handle old

theorem enter (sound : table.Sound) (name : String) : (table.enter name).Sound := by
  rw [MutexTable.enter]
  split
  · exact sound
  · rename_i absent
    exact sound.make absent

/-- What is done to the mutex of a name keeps the invariant if it is done to its holders too. -/
theorem alter (sound : table.Sound) (found : table.handles.get? name = some handle)
    {change : Mutex → Mutex} {holders : List Holder}
    (serves : (change (table.mutexes handle)).Serves (Holder.tickets holders name))
    (others : ∀ other ≠ name, Holder.tickets holders other = Holder.tickets table.holders other)
    (current : ∀ holder ∈ holders, table.handles.get? holder.name = some holder.handle)
    (distinct : (holders.map Holder.ticket).Nodup) :
    (table.alter handle change holders).Sound := by
  refine ⟨sound.apart, sound.made, current, fun other otherHandle hasOther => ?_, distinct⟩
  by_cases same : other = name
  · subst same
    obtain rfl := Option.some.inj (found.symm.trans hasOther)
    rwa [mutexes_alter_self]
  · rw [mutexes_alter_of_ne (sound.handle_ne found hasOther same)]
    refine (others other same).symm ▸ ?_
    exact sound.serves other otherHandle hasOther

theorem call (sound : table.Sound) (name : String)
    (isNew : ∀ holder ∈ table.holders, holder.ticket ≠ ticket) :
    (table.call name ticket).Sound := by
  have entered := sound.enter name
  have found := table.get?_enter name
  rw [MutexTable.call]
  refine entered.alter found ?serves ?others ?current ?distinct
  case serves =>
    rw [Holder.tickets_append, if_pos rfl]
    exact (entered.serves name _ found).join ticket
  case others =>
    intro other notName
    rw [Holder.tickets_append, if_neg (Ne.symm notName), List.append_nil]
  case current =>
    intro holder holderMem
    rcases List.mem_append.mp holderMem with isOld | isLast
    · exact entered.current holder isOld
    · rw [List.mem_singleton.mp isLast]
      exact found
  case distinct =>
    rw [List.map_append, List.nodup_append]
    refine ⟨entered.distinct, List.nodup_singleton _, fun old oldMem last isLast => ?_⟩
    rw [enter_holders] at oldMem
    rcases List.mem_map.mp oldMem with ⟨holder, holderMem, rfl⟩
    rw [List.mem_singleton.mp isLast]
    exact isNew holder holderMem

/-- A holder that lets go of its handle leaves the lines of the other names as they are. -/
theorem giveUp (sound : table.Sound) (holderMem : holder ∈ table.holders) :
    (table.giveUp holder).Sound := by
  have found := sound.current holder holderMem
  have nodup := Holder.nodup_tickets sound.distinct holder.name
  have ticketMem : holder.ticket ∈ Holder.tickets table.holders holder.name :=
    Holder.mem_tickets_iff.mpr ⟨holder, holderMem, rfl, rfl⟩
  refine sound.alter found ?serves ?others ?current ?distinct
  case serves =>
    rw [Holder.tickets_filter]
    exact (sound.serves holder.name _ found).leave nodup ticketMem
  case others =>
    intro name notName
    rw [Holder.tickets_filter, List.filter_eq_self]
    intro ticket isTicket
    rcases Holder.mem_tickets_iff.mp isTicket with ⟨other, otherMem, rfl, rfl⟩
    refine decide_eq_true fun same => notName ?_
    rw [List.inj_on_of_nodup_map sound.distinct otherMem holderMem same]
  case current =>
    exact fun other otherMem => sound.current other (List.mem_filter.mp otherMem).1
  case distinct => exact sound.distinct.sublist (List.filter_sublist.map _)

theorem unlock_eq_giveUp (owns : table.Owns holder) :
    table.unlock holder = table.giveUp holder := by
  rw [MutexTable.unlock, MutexTable.giveUp, MutexTable.alter, MutexTable.alter,
    Mutex.leave_eq_unlock owns]

theorem eq_of_get?_remove {other : String} {otherHandle : Handle}
    (left : (table.remove name handle).handles.get? other = some otherHandle) :
    other ≠ name ∧ table.handles.get? other = some otherHandle := by
  rw [get?_remove] at left
  split at left
  · exact nomatch left
  · exact ⟨‹_›, left⟩

theorem remove (sound : table.Sound) (found : table.handles.get? name = some handle)
    (nobody : ∀ holder ∈ table.holders, holder.name ≠ name) : (table.remove name handle).Sound := by
  refine ⟨?apart, ?made, ?current, ?serves, sound.distinct⟩
  case apart =>
    intro first second shared hasFirst hasSecond
    exact sound.apart first second shared (eq_of_get?_remove hasFirst).2
      (eq_of_get?_remove hasSecond).2
  case made =>
    exact fun other otherHandle left => sound.made other _ (eq_of_get?_remove left).2
  case current =>
    intro holder holderMem
    rw [get?_remove, if_neg (nobody holder holderMem)]
    exact sound.current holder holderMem
  case serves =>
    intro other otherHandle left
    rcases eq_of_get?_remove left with ⟨isOther, hasOther⟩
    rw [mutexes_remove_of_ne (sound.handle_ne found hasOther isOther)]
    exact sound.serves other otherHandle hasOther

theorem sweep (sound : table.Sound) (name : String) : (table.sweep name).Sound := by
  rw [MutexTable.sweep]
  split
  · exact sound
  · rename_i handle found
    split
    · rename_i alone
      exact sound.remove found (Holder.tickets_eq_nil_iff.mp
        ((sound.serves name handle found).count_eq_one_iff.mp alone))
    · exact sound

theorem step (sound : table.Sound) (step : table.Step next) : next.Sound := by
  cases step with
  | call name isNew => exact sound.call name isNew
  | balk name => exact balk_eq_enter table name ▸ sound.enter name
  | giveUp holderMem => exact sound.giveUp holderMem
  | unlock holderMem owns => exact unlock_eq_giveUp owns ▸ sound.giveUp holderMem
  | sweep name => exact sound.sweep name

end Sound

theorem Reached.sound (reached : table.Reached) : table.Sound := by
  induction reached with
  | empty => exact ⟨nofun, nofun, nofun, nofun, List.nodup_nil⟩
  | step reached step ih => exact ih.step step

/-! ### When a mutex is taken out -/

/-- Calls for one name go by one mutex, whatever happened between them. -/
theorem Reached.handle_eq (reached : table.Reached) {first second : Holder}
    (firstMem : first ∈ table.holders) (secondMem : second ∈ table.holders)
    (sameName : first.name = second.name) : first.handle = second.handle := by
  have hasFirst := reached.sound.current first firstMem
  rw [sameName, reached.sound.current second secondMem] at hasFirst
  exact (Option.some.inj hasFirst).symm

/-- So one of them has the lock at a time. -/
theorem Reached.eq_of_owns (reached : table.Reached) {first second : Holder}
    (firstMem : first ∈ table.holders) (secondMem : second ∈ table.holders)
    (sameName : first.name = second.name) (firstOwns : table.Owns first)
    (secondOwns : table.Owns second) : first = second := by
  have sameHandle := reached.handle_eq firstMem secondMem sameName
  have sameTicket : first.ticket = second.ticket := by
    rw [Owns, sameHandle, secondOwns] at firstOwns
    exact (Option.some.inj firstOwns).symm
  exact List.inj_on_of_nodup_map reached.sound.distinct firstMem secondMem sameTicket

/-- A sweep takes a mutex out exactly if nobody goes by its name. -/
theorem Reached.get?_sweep_eq_none_iff (reached : table.Reached) (name : String) :
    (table.sweep name).handles.get? name = none ↔ ∀ holder ∈ table.holders, holder.name ≠ name := by
  rw [← Holder.tickets_eq_nil_iff, sweep]
  split
  · rename_i absent
    simp [absent, reached.sound.tickets_eq_nil absent]
  · rename_i handle found
    rw [← (reached.sound.serves name handle found).count_eq_one_iff]
    split
    · rename_i alone
      simp [alone, remove]
    · rename_i notAlone
      simp [found, notAlone]

/-! ### The entries of the mutexes -/

/-- The entries of a lock table are those of the mutexes. -/
structure Represents (table : MutexTable) (locks : LockTable) : Prop where
  names : locks.names = table.handles.names
  entry : ∀ name, locks.entries.get? name =
    (table.handles.get? name).map fun handle => (table.mutexes handle).entry

variable {locks : LockTable}

namespace Represents

theorem line_eq (represents : table.Represents locks) (sound : table.Sound) (name : String) :
    locks.line name = Holder.tickets table.holders name := by
  rw [LockTable.line, represents.entry]
  cases found : table.handles.get? name with
  | none =>
      rw [sound.tickets_eq_nil found]
      rfl
  | some handle => exact (sound.serves name handle found).line

theorem orderly (represents : table.Represents locks) (sound : table.Sound) : locks.Orderly := by
  intro name entry hasEntry
  rw [represents.entry] at hasEntry
  rcases Option.map_eq_some_iff.mp hasEntry with ⟨handle, found, rfl⟩
  exact (sound.serves name handle found).orderly

theorem enter (represents : table.Represents locks) (sound : table.Sound) (name : String) :
    (table.enter name).Represents
      ⟨locks.entries.insert name ((locks.entries.get? name).getD ⟨none, []⟩)⟩ := by
  have hasEntry := represents.entry name
  rw [MutexTable.enter]
  split
  · rename_i handle found
    rw [found, Option.map_some] at hasEntry
    rw [hasEntry, Option.getD_some, NameMap.insert_eq_self hasEntry]
    exact represents
  · rename_i absent
    rw [absent, Option.map_none] at hasEntry
    rw [hasEntry, Option.getD_none]
    constructor
    case names =>
      rw [LockTable.names, MutexTable.make, NameMap.names_insert, NameMap.names_insert,
        ← represents.names]
      rfl
    case entry =>
      intro other
      rw [NameMap.get?_insert, get?_make]
      split
      · rw [Option.map_some, mutexes_make_next]
        rfl
      · rw [represents.entry]
        refine Option.map_congr fun handle found => ?_
        rw [mutexes_make_of_ne (Nat.ne_of_lt (sound.made other handle found))]

theorem alter (represents : table.Represents locks) (sound : table.Sound)
    (found : table.handles.get? name = some handle) (change : Mutex → Mutex)
    (holders : List Holder) :
    (table.alter handle change holders).Represents
      ⟨locks.entries.insert name (change (table.mutexes handle)).entry⟩ := by
  have hasEntry := represents.entry name
  rw [found, Option.map_some] at hasEntry
  refine ⟨(NameMap.names_insert_of_get? hasEntry _).trans represents.names, fun other => ?_⟩
  rw [NameMap.get?_insert]
  split
  · rename_i same
    subst same
    have foundStill : (table.alter handle change holders).handles.get? other = some handle := found
    rw [foundStill, Option.map_some, mutexes_alter_self]
  · rename_i notName
    rw [represents.entry]
    refine Option.map_congr fun otherHandle hasOther => ?_
    rw [mutexes_alter_of_ne (sound.handle_ne found hasOther notName)]

theorem call (represents : table.Represents locks) (sound : table.Sound) (name : String)
    (ticket : Ticket) : (table.call name ticket).Represents (locks.call name ticket) := by
  have entered := represents.enter sound name
  have found := table.get?_enter name
  have hasEntry := entered.entry name
  rw [NameMap.get?_insert, if_pos rfl, found, Option.map_some] at hasEntry
  have called := entered.alter (sound.enter name) found (fun mutex => mutex.clone.join ticket)
    ((table.enter name).holders ++ [⟨name, ticket, table.handleFor name⟩])
  rw [NameMap.insert_insert] at called
  rw [LockTable.call, Option.some.inj hasEntry]
  exact called

theorem balk (represents : table.Represents locks) (sound : table.Sound) (name : String)
    (fresh : ∀ holder ∈ table.holders, holder.ticket ≠ ticket) :
    (table.balk name).Represents ((locks.call name ticket).giveUp name ticket) := by
  have notInLine : ticket ∉ locks.line name := by
    rw [represents.line_eq sound, Holder.mem_tickets_iff]
    rintro ⟨holder, holderMem, -, isTicket⟩
    exact fresh holder holderMem isTicket
  rw [LockTable.giveUp_call (represents.orderly sound) notInLine, balk_eq_enter]
  exact represents.enter sound name

theorem giveUp (represents : table.Represents locks) (sound : table.Sound)
    (holderMem : holder ∈ table.holders) :
    (table.giveUp holder).Represents (locks.giveUp holder.name holder.ticket) := by
  have found := sound.current holder holderMem
  have hasEntry := represents.entry holder.name
  rw [found, Option.map_some] at hasEntry
  rw [LockTable.giveUp, hasEntry]
  exact represents.alter sound found _ _

theorem remove (represents : table.Represents locks) (sound : table.Sound)
    (found : table.handles.get? name = some handle) :
    (table.remove name handle).Represents ⟨locks.entries.erase name⟩ := by
  constructor
  case names =>
    rw [LockTable.names, MutexTable.remove, NameMap.names_erase, NameMap.names_erase,
      ← represents.names]
    rfl
  case entry =>
    intro other
    rw [NameMap.get?_erase, get?_remove]
    split
    · rfl
    · rename_i notName
      rw [represents.entry]
      refine Option.map_congr fun otherHandle hasOther => ?_
      rw [mutexes_remove_of_ne (sound.handle_ne found hasOther notName)]

/-- A guard that is dropped, when nothing else happens before its end is over. -/
theorem drop (represents : table.Represents locks) (sound : table.Sound)
    (holderMem : holder ∈ table.holders) (owns : table.Owns holder) :
    ((table.unlock holder).sweep holder.name).Represents (locks.release holder.name) := by
  have found := sound.current holder holderMem
  have hasEntry := represents.entry holder.name
  rw [found, Option.map_some] at hasEntry
  have unlocked := represents.alter sound found (fun mutex => mutex.unlock.letGo)
    (table.holders.filter fun other => other.ticket ≠ holder.ticket)
  have left : (table.unlock holder).Sound := Sound.unlock_eq_giveUp owns ▸ sound.giveUp holderMem
  have serves := left.serves holder.name holder.handle found
  have isFree : (table.mutexes holder.handle).entry.handOn.owner = none ↔
      ((table.unlock holder).mutexes holder.handle).count = 1 := by
    have owner := serves.owner_eq_head?
    rw [serves.count_eq_one_iff, ← List.head?_eq_none_iff, ← owner, MutexTable.unlock,
      mutexes_alter_self]
    rfl
  have foundStill : (table.unlock holder).handles.get? holder.name = some holder.handle := found
  rw [LockTable.release, hasEntry, MutexTable.sweep, foundStill]
  simp only [isFree]
  split
  · have removed := unlocked.remove left foundStill
    rw [NameMap.erase_insert] at removed
    exact removed
  · exact unlocked

end Represents

end MutexTable

/-! ### Histories -/

/-- Mutexes can come to have these entries. -/
def LockTable.Backed (locks : LockTable) : Prop :=
  ∃ table : MutexTable, table.Reached ∧ table.Represents locks

namespace LockTable.Backed

variable {locks : LockTable} {name : String} {ticket : Ticket}

theorem exists_holder {table : MutexTable} (reached : table.Reached)
    (represents : table.Represents locks) (ticketMem : ticket ∈ locks.line name) :
    ∃ holder ∈ table.holders, holder.name = name ∧ holder.ticket = ticket :=
  Holder.mem_tickets_iff.mp (represents.line_eq reached.sound name ▸ ticketMem)

theorem ticket_ne {table : MutexTable} (reached : table.Reached)
    (represents : table.Represents locks) (fresh : ∀ name, ticket ∉ locks.line name) :
    ∀ holder ∈ table.holders, holder.ticket ≠ ticket := by
  intro holder holderMem same
  refine fresh holder.name ?_
  rw [represents.line_eq reached.sound]
  exact Holder.mem_tickets_iff.mpr ⟨holder, holderMem, rfl, same⟩

theorem call (backed : locks.Backed) (fresh : ∀ name, ticket ∉ locks.line name) (name : String) :
    (locks.call name ticket).Backed := by
  rcases backed with ⟨table, reached, represents⟩
  exact ⟨_, reached.step (.call name (ticket_ne reached represents fresh)),
    represents.call reached.sound name ticket⟩

theorem balk (backed : locks.Backed) (fresh : ∀ name, ticket ∉ locks.line name) (name : String) :
    ((locks.call name ticket).giveUp name ticket).Backed := by
  rcases backed with ⟨table, reached, represents⟩
  exact ⟨_, reached.step (.balk name),
    represents.balk reached.sound name (ticket_ne reached represents fresh)⟩

theorem giveUp (backed : locks.Backed) (ticketMem : ticket ∈ locks.line name) :
    (locks.giveUp name ticket).Backed := by
  rcases backed with ⟨table, reached, represents⟩
  rcases exists_holder reached represents ticketMem with ⟨holder, holderMem, rfl, rfl⟩
  exact ⟨_, reached.step (.giveUp holderMem), represents.giveUp reached.sound holderMem⟩

theorem release (backed : locks.Backed) (isOwner : locks.isOwner name ticket) :
    (locks.release name).Backed := by
  rcases backed with ⟨table, reached, represents⟩
  have first := (isOwner_iff (represents.orderly reached.sound)).mp isOwner
  rcases exists_holder reached represents (List.mem_of_mem_head? first) with
    ⟨holder, holderMem, rfl, rfl⟩
  have owns : table.Owns holder := by
    have found := reached.sound.current holder holderMem
    have serves := reached.sound.serves holder.name holder.handle found
    rw [MutexTable.Owns, serves.owner_eq_head?, ← represents.line_eq reached.sound, first]
  exact ⟨_, (reached.step (.unlock holderMem owns)).step (.sweep holder.name),
    represents.drop reached.sound holderMem owns⟩

end LockTable.Backed

namespace Locking

variable {locking next first last : Locking ω} {event : LockEvent} {events : List LockEvent}

theorem Ordered.mem_line {name : String} {before after : List LockCall} {call : LockCall}
    (ordered : locking.Ordered) (has : locking.calls name = before ++ call :: after)
    (active : call.fate.isActive) : call.ticket ∈ locking.world.locks.line name := by
  rw [ordered.line, has, LockCall.standing_append, LockCall.standing_cons_of_isActive active]
  simp

theorem Step.backed (step : locking.Step event next) (ordered : locking.Ordered)
    (backed : locking.world.locks.Backed) : next.world.locks.Backed := by
  cases step with
  | call name timeout token =>
      have called := backed.call ordered.fresh_line name
      have refused : ((locking.world.callLock name).1.giveUpLock name
          (locking.world.callLock name).2).locks.Backed := by
        rw [World.giveUpLock_locks]
        refine called.giveUp ?_
        rw [LockTable.line_call ordered.orderly, Function.update_self]
        exact List.mem_append_right _ (List.mem_singleton_self _)
      simp only [callOn, Session.tryLock, enter]
      split
      · exact called
      · split
        · exact refused
        · split
          · exact refused
          · exact called
  | balk name timeout cancelled =>
      rw [balkOn, enter, World.balkAtLock, World.giveUpLock_locks]
      exact backed.balk ordered.fresh_line name
  | poll has waits awake =>
      rename_i call after alarm
      have active : call.fate.isActive := by rw [waits]; rfl
      simp only [pollOn, Session.leaveLine, enter]
      split
      · exact backed
      · rw [World.giveUpLock_locks]
        exact backed.giveUp (ordered.mem_line has active)
  | abandon has waits cancelled =>
      rw [abandonOn, enter, World.giveUpLock_locks]
      exact backed.giveUp (ordered.mem_line has (LockFate.isActive_of_isWaiting waits))
  | drop has holds =>
      rename_i call after since
      have isLive : call.fate.isHolding := by rw [holds]; rfl
      have active := LockFate.isActive_of_isHolding isLive
      have first := ordered.standing_eq_nil_of_isGranted has
        (LockFate.isGranted_of_isHolding isLive)
      exact backed.release ((ordered.isOwner_iff has active).mpr first)
  | cancel token => exact backed
  | tick settled later inTime => exact backed
  | elsewhere sameLocks sameClock sameTickets => exact sameLocks ▸ backed

/-- The lock table can be made of mutexes throughout: those that hold handles are the calls that
wait and the guards that are live, and the entries are those of the mutexes. -/
theorem History.mutexes {world : World ω} (noLocks : world.locks = .empty)
    (history : History (initial world) events last) :
    ∃ table : MutexTable, table.Reached ∧ table.Represents last.world.locks ∧
      ∀ name, Holder.tickets table.holders name = LockCall.standing (last.calls name) := by
  have backed : last.world.locks.Backed := by
    induction history with
    | start =>
        refine ⟨.empty, .empty, ?_⟩
        rw [initial, noLocks]
        exact ⟨rfl, fun name => rfl⟩
    | step history step ih => exact step.backed (history.ordered (ordered_initial noLocks)) ih
  rcases backed with ⟨table, reached, represents⟩
  refine ⟨table, reached, represents, fun name => ?_⟩
  rw [← represents.line_eq reached.sound,
    (history.ordered (ordered_initial noLocks)).line]

end Locking

end TestEngine
