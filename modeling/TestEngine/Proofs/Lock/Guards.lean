import Mathlib.Data.List.Induction
import Mathlib.Data.List.Nodup
import TestEngine.Proofs.Lock.Table
import TestEngine.Proofs.NameMap
import TestEngine.Run.Program

/-!
# Guards

Whoever is granted locks one after the other holds guards. What stands in a table in which nobody
else moves can be read off its name by name: the entry of a guard, the entry that was there before,
or what the requests of the run have left under a name that nobody used. A call that gives up
because its lock is held leaves nothing, a lock that is given back loses its entry, and a call that
goes away before it looks for a free lock leaves an entry that nobody uses.
-/

namespace TestEngine.LockTable

variable {table base : LockTable} {name other : String} {ticket next : Ticket}

/-! ### Tables of tickets that were drawn -/

/-- An orderly table whose calls have drawn their tickets before a given one. -/
structure Issued (table : LockTable) (next : Ticket) : Prop where
  orderly : table.Orderly
  earlier (name : String) : ∀ ticket ∈ table.line name, ticket < next

theorem issued_empty (next : Ticket) : empty.Issued next :=
  ⟨orderly_empty, fun _ _ ticketMem => nomatch ticketMem⟩

theorem owner?_eq (orderly : table.Orderly) (name : String) :
    table.owner? name = (table.line name).head? := by
  rw [owner?, line]
  cases found : table.entries.get? name with
  | none => rfl
  | some entry => exact LockEntry.owner_eq_head?_line (orderly name entry found)

theorem line_eq_nil_iff (orderly : table.Orderly) :
    table.line name = [] ↔ table.owner? name = none := by
  rw [owner?_eq orderly, List.head?_eq_none_iff]

/-! ### Calls -/

section Calls

variable (orderly : table.Orderly)

include orderly

theorem owner?_call_self (free : table.owner? name = none) (ticket : Ticket) :
    (table.call name ticket).owner? name = some ticket := by
  rw [owner?_eq (orderly.call name ticket), line_call orderly, Function.update_self,
    (line_eq_nil_iff orderly).mpr free]
  rfl

theorem owner?_call_of_some {owner : Ticket} (held : table.owner? other = some owner)
    (name : String) (ticket : Ticket) : (table.call name ticket).owner? other = some owner := by
  rw [owner?_eq orderly] at held
  rw [owner?_eq (orderly.call name ticket), line_call orderly, Function.update_apply]
  split
  · rename_i same
    rw [← same, List.head?_append, held]
    rfl
  · exact held

end Calls

theorem Issued.call (issued : table.Issued next) (name : String) :
    (table.call name next).Issued (next + 1) := by
  refine ⟨issued.orderly.call name next, fun other ticket ticketMem => ?_⟩
  rw [line_call issued.orderly, Function.update_apply] at ticketMem
  split at ticketMem
  · rcases List.mem_append.mp ticketMem with inLine | isNext
    · exact Nat.lt_succ_of_lt (issued.earlier name ticket inLine)
    · rw [List.mem_singleton.mp isNext]
      exact Nat.lt_succ_self next
  · exact Nat.lt_succ_of_lt (issued.earlier other ticket ticketMem)

theorem Issued.release (issued : table.Issued next) (name : String) :
    (table.release name).Issued next := by
  refine ⟨issued.orderly.release name, fun other ticket ticketMem => ?_⟩
  rw [line_release issued.orderly, Function.update_apply] at ticketMem
  split at ticketMem
  · exact issued.earlier name ticket (List.mem_of_mem_tail ticketMem)
  · exact issued.earlier other ticket ticketMem

theorem Issued.giveUp (issued : table.Issued next) (name : String)
    (distinct : (table.line name).Nodup) (ticket : Ticket) :
    (table.giveUp name ticket).Issued next := by
  refine ⟨issued.orderly.giveUp name ticket, fun other standing standingMem => ?_⟩
  rw [line_giveUp issued.orderly distinct, Function.update_apply] at standingMem
  split at standingMem
  · exact issued.earlier name standing (List.mem_filter.mp standingMem |>.1)
  · exact issued.earlier other standing standingMem

theorem Issued.balk (issued : table.Issued next) (free : table.owner? name = none) :
    ((table.call name next).giveUp name next).Issued (next + 1) := by
  have calledLine : (table.call name next).line name = [next] := by
    rw [line_call issued.orderly, Function.update_self, (line_eq_nil_iff issued.orderly).mpr free]
    rfl
  exact (issued.call name).giveUp name (calledLine ▸ List.nodup_singleton next) next

theorem Issued.mono (issued : table.Issued next) {later : Ticket} (le : next ≤ later) :
    table.Issued later :=
  ⟨issued.orderly, fun name ticket ticketMem =>
    Nat.lt_of_lt_of_le (issued.earlier name ticket ticketMem) le⟩

theorem Issued.fresh (issued : table.Issued next) (name : String) : next ∉ table.line name :=
  fun nextMem => Nat.lt_irrefl next (issued.earlier name next nextMem)

theorem isOwner_call_of_free (orderly : table.Orderly) (free : table.owner? name = none)
    (ticket : Ticket) : (table.call name ticket).isOwner name ticket = true :=
  decide_eq_true (owner?_call_self orderly free ticket)

theorem isOwner_call_of_held (issued : table.Issued next) (held : table.owner? name ≠ none) :
    (table.call name next).isOwner name next = false := by
  rcases Option.ne_none_iff_exists'.mp held with ⟨owner, hasOwner⟩
  have ownerNe : owner ≠ next := by
    rintro rfl
    rw [owner?_eq issued.orderly] at hasOwner
    exact issued.fresh name (List.mem_of_mem_head? hasOwner)
  refine decide_eq_false fun isOwner => ownerNe (Option.some.inj ?_)
  exact (owner?_call_of_some issued.orderly hasOwner name next).symm.trans isOwner

/-- A call that gives up because somebody else has the lock leaves nothing behind. -/
theorem giveUp_call_of_held (orderly : table.Orderly) (held : table.owner? name ≠ none)
    (fresh : ticket ∉ table.line name) :
    (table.call name ticket).giveUp name ticket = table := by
  rw [giveUp_call orderly fresh]
  cases found : table.entries.get? name with
  | none => simp [owner?, found] at held
  | some entry => rw [Option.getD_some, NameMap.insert_eq_self found]

/-! ### Names that nobody uses -/

/-- What is found under a name that nobody uses once a request was made that leaves it unused. -/
def leftBy (name : String) (entry : Option LockEntry) : Request → Option LockEntry
  | .acquire other _ => if other = name then some ⟨none, []⟩ else entry
  | .release other => if other = name then none else entry
  | _ => entry

/-- What a run that holds no guard of a name has left under it, if nobody used the name before. -/
def leftUnder (table : LockTable) (name : String) (trace : List Request) : Option LockEntry :=
  trace.foldl (leftBy name) (table.entries.get? name)

section Left

theorem leftUnder_snoc (table : LockTable) (name : String) (trace : List Request)
    (request : Request) :
    table.leftUnder name (trace ++ [request]) = leftBy name (table.leftUnder name trace) request :=
  List.foldl_append ..

theorem leftUnder_cases (table : LockTable) (name : String) (trace : List Request) :
    table.leftUnder name trace = table.entries.get? name ∨ table.leftUnder name trace = none ∨
      table.leftUnder name trace = some ⟨none, []⟩ := by
  induction trace using List.reverseRecOn with
  | nil => exact .inl rfl
  | append_singleton trace request ih =>
      rw [leftUnder_snoc]
      cases request with
      | acquire other timeout =>
          rw [leftBy]
          split
          · exact .inr (.inr rfl)
          · exact ih
      | release other =>
          rw [leftBy]
          split
          · exact .inr (.inl rfl)
          · exact ih
      | _ => exact ih

/-- Nobody uses what is left. -/
theorem owner_leftUnder (free : table.owner? name = none) (trace : List Request) :
    (table.leftUnder name trace).bind LockEntry.owner = none := by
  rcases table.leftUnder_cases name trace with same | gone | idle
  · rw [same]
    exact free
  · rw [gone]
    rfl
  · rw [idle]
    rfl

end Left

/-! ### Old calls -/

/-- The entries whose locks were taken before a ticket was drawn. -/
def old (table : LockTable) (first : Ticket) : List (String × LockEntry) :=
  table.entries.entries.filter fun entry => (table.owner? entry.1).any (· < first)

section Old

variable {first : Ticket}

theorem isNew_of_free (free : table.owner? name = none) (first : Ticket) :
    (table.owner? name).any (· < first) = false := by
  rw [free]
  rfl

theorem old_insert (isNew : (table.owner? name).any (· < first) = false) {entry : LockEntry}
    (staysNew : entry.owner.any (· < first) = false) :
    old ⟨table.entries.insert name entry⟩ first = table.old first := by
  have owner (other : String) : owner? ⟨table.entries.insert name entry⟩ other =
      if other = name then entry.owner else table.owner? other := by
    rw [owner?, NameMap.get?_insert]
    split <;> rfl
  have same (other : String) : (owner? ⟨table.entries.insert name entry⟩ other).any (· < first) =
      (table.owner? other).any (· < first) := by
    rw [owner]
    split
    · rename_i isName
      rw [isName, isNew, staysNew]
    · rfl
  simp only [old, same]
  exact NameMap.filter_replace (fun other => (table.owner? other).any (· < first)) isNew entry _

theorem old_erase (isNew : (table.owner? name).any (· < first) = false) :
    old ⟨table.entries.erase name⟩ first = table.old first := by
  have owner (other : String) : owner? ⟨table.entries.erase name⟩ other =
      if other = name then none else table.owner? other := by
    rw [owner?, NameMap.get?_erase]
    split <;> rfl
  simp only [old, owner]
  rw [NameMap.erase, List.filter_filter]
  refine List.filter_congr fun entry _ => ?_
  by_cases isName : entry.1 = name
  · simp [isName, isNew]
  · simp [isName]

theorem entries_eq_old (allOld : ∀ name entry, table.entries.get? name = some entry →
    entry.owner.any (· < first) = true) : table.entries.entries = table.old first := by
  symm
  refine List.filter_eq_self.mpr fun entry entryMem => ?_
  have isThere := NameMap.isSome_lookup_of_mem entryMem
  rcases Option.isSome_iff_exists.mp isThere with ⟨found, hasFound⟩
  have hasOld := allOld entry.1 found hasFound
  rw [owner?, NameMap.get?, hasFound]
  exact hasOld

/-- Tables all of whose locks were taken before are the same if these are. -/
theorem eq_of_old (sameOld : table.old first = base.old first)
    (tableOld : ∀ name entry, table.entries.get? name = some entry →
      entry.owner.any (· < first) = true)
    (baseOld : ∀ name entry, base.entries.get? name = some entry →
      entry.owner.any (· < first) = true) : table = base := by
  have sameEntries := (entries_eq_old tableOld).trans (sameOld.trans (entries_eq_old baseOld).symm)
  rcases table with ⟨⟨entries⟩⟩
  rcases base with ⟨⟨baseEntries⟩⟩
  obtain rfl : entries = baseEntries := sameEntries
  rfl

end Old

/-! ### The steps of a run -/

theorem call_of_free (orderly : table.Orderly) (free : table.owner? name = none)
    (ticket : Ticket) :
    table.call name ticket = ⟨table.entries.insert name ⟨some ticket, []⟩⟩ := by
  cases found : table.entries.get? name with
  | none => simp [call, found, LockEntry.join]
  | some entry =>
      have noOwner : entry.owner = none := by simpa [owner?, found] using free
      simp [call, found, LockEntry.join, noOwner, orderly name entry found noOwner]

/-- A call for a free lock that goes away again leaves an entry that nobody uses. -/
theorem giveUp_call_of_free (orderly : table.Orderly) (free : table.owner? name = none)
    (ticket : Ticket) :
    (table.call name ticket).giveUp name ticket = ⟨table.entries.insert name ⟨none, []⟩⟩ := by
  rw [call_of_free orderly free]
  simp [giveUp, LockEntry.leave, LockEntry.handOn, NameMap.insert_insert]

/-- A lock that nobody waits for loses its entry when it is given back. -/
theorem release_of_unawaited (found : table.entries.get? name = some ⟨some ticket, []⟩) :
    table.release name = ⟨table.entries.erase name⟩ := by
  simp [release, found, LockEntry.handOn]

/-! ### Guards -/

/-- What is found under a name in a table in which nobody but a run has moved, which has been
granted guards and has made some requests. -/
def entryFor (base : LockTable) (guards : List (String × Ticket)) (trace : List Request)
    (name : String) : Option LockEntry :=
  match NameMap.lookup name guards with
  | some ticket => some ⟨some ticket, []⟩
  | none =>
    if base.owner? name = none then base.leftUnder name trace else base.entries.get? name

/-- A table in which nobody has moved but a run that has drawn its tickets from the first one on. -/
structure Moved (base : LockTable) (first : Ticket) (guards : List (String × Ticket))
    (trace : List Request) (table : LockTable) : Prop where
  entry (name : String) : table.entries.get? name = base.entryFor guards trace name
  old : table.old first = base.old first
  own : ∀ guard ∈ guards, first ≤ guard.2
  free : ∀ guard ∈ guards, base.owner? guard.1 = none
  distinct : (guards.map Prod.fst).Nodup

/-- A name that nobody uses has no entry in a table of names in use. -/
theorem get?_eq_none_of_inUse
    (inUse : ∀ name entry, table.entries.get? name = some entry → entry.owner ≠ none)
    (free : table.owner? name = none) : table.entries.get? name = none := by
  cases hasEntry : table.entries.get? name with
  | none => rfl
  | some entry =>
      have noOwner : entry.owner = none := by simpa [owner?, hasEntry] using free
      exact absurd noOwner (inUse name entry hasEntry)

namespace Moved

variable {first : Ticket} {guards : List (String × Ticket)} {trace : List Request}
  {request : Request}

theorem start (base : LockTable) (first : Ticket) : base.Moved first [] [] base where
  entry name := by
    rw [entryFor, NameMap.lookup]
    exact (ite_self _).symm
  old := rfl
  own := nofun
  free := nofun
  distinct := List.nodup_nil

theorem orderly (moved : base.Moved first guards trace table) (baseOrderly : base.Orderly) :
    table.Orderly := by
  intro name entry found noOwner
  rw [moved.entry, entryFor] at found
  split at found
  · rw [← Option.some.inj found]
  · split at found
    · rcases base.leftUnder_cases name trace with same | gone | idle
      · exact baseOrderly name entry (same ▸ found) noOwner
      · exact nomatch gone.symm.trans found
      · rw [← Option.some.inj (idle.symm.trans found)]
    · exact baseOrderly name entry found noOwner

theorem owner? (moved : base.Moved first guards trace table)
    (guardMem : (name, ticket) ∈ guards) : table.owner? name = some ticket := by
  have found := NameMap.lookup_of_mem_nodup moved.distinct guardMem
  rw [LockTable.owner?, moved.entry, entryFor, found]
  rfl

/-- A lock is free exactly if nobody had it before and the run has no guard of it. -/
theorem owner?_eq_none_iff (moved : base.Moved first guards trace table) :
    table.owner? name = none ↔ NameMap.lookup name guards = none ∧ base.owner? name = none := by
  rw [LockTable.owner?, moved.entry, entryFor]
  cases NameMap.lookup name guards with
  | some ticket => simp
  | none =>
      by_cases free : base.owner? name = none
      · simp [free, owner_leftUnder free]
      · have stillHeld : (base.entries.get? name).bind LockEntry.owner ≠ none := free
        simp [free, stillHeld]

/-- A request that changes nothing in the table, and nothing in what is found under free names. -/
theorem keep (moved : base.Moved first guards trace table)
    (same : ∀ name, table.owner? name = none →
      leftBy name (base.leftUnder name trace) request = base.leftUnder name trace) :
    base.Moved first guards (trace ++ [request]) table where
  entry name := by
    have isFree : table.owner? name = none ↔ _ := moved.owner?_eq_none_iff
    rw [moved.entry, entryFor, entryFor, leftUnder_snoc]
    cases noGuard : NameMap.lookup name guards with
    | some ticket => rfl
    | none =>
        dsimp only
        split
        · rename_i free
          rw [same name (isFree.mpr ⟨noGuard, free⟩)]
        · rfl
  old := moved.old
  own := moved.own
  free := moved.free
  distinct := moved.distinct

/-- A free lock is granted. -/
theorem grant (moved : base.Moved first guards trace table) (baseOrderly : base.Orderly)
    (free : table.owner? name = none) (timeout : Nat) (drawn : first ≤ ticket) :
    base.Moved first ((name, ticket) :: guards) (trace ++ [.acquire name timeout])
      (table.call name ticket) := by
  rcases moved.owner?_eq_none_iff.mp free with ⟨noGuard, baseFree⟩
  rw [call_of_free (moved.orderly baseOrderly) free]
  constructor
  case entry =>
    intro other
    rw [NameMap.get?_insert, entryFor, NameMap.lookup, moved.entry, entryFor, leftUnder_snoc,
      leftBy]
    by_cases same : other = name
    · simp [same]
    · simp [same, Ne.symm same]
  case old =>
    have isNew : (some ticket).any (· < first) = false := by simpa using drawn
    exact (old_insert (isNew_of_free free first) isNew).trans moved.old
  case own => exact List.forall_mem_cons.mpr ⟨drawn, moved.own⟩
  case free => exact List.forall_mem_cons.mpr ⟨baseFree, moved.free⟩
  case distinct =>
    refine List.nodup_cons.mpr ⟨fun nameMem => ?_, moved.distinct⟩
    have isGuard := NameMap.isSome_lookup_iff.mpr nameMem
    simp [noGuard] at isGuard

/-- A call for a free lock goes away without the lock. -/
theorem balk (moved : base.Moved first guards trace table) (baseOrderly : base.Orderly)
    (free : table.owner? name = none) (timeout : Nat) (ticket : Ticket) :
    base.Moved first guards (trace ++ [.acquire name timeout])
      ((table.call name ticket).giveUp name ticket) := by
  rcases moved.owner?_eq_none_iff.mp free with ⟨noGuard, baseFree⟩
  rw [giveUp_call_of_free (moved.orderly baseOrderly) free]
  refine ⟨fun other => ?_, (old_insert (isNew_of_free free first) rfl).trans moved.old, moved.own,
    moved.free, moved.distinct⟩
  rw [NameMap.get?_insert, entryFor, moved.entry, entryFor, leftUnder_snoc, leftBy]
  by_cases same : other = name
  · simp [same, noGuard, baseFree]
  · simp [same, Ne.symm same]

/-- A call for a lock that somebody has comes to nothing. -/
theorem refuse (moved : base.Moved first guards trace table) (held : table.owner? name ≠ none)
    (timeout : Nat) : base.Moved first guards (trace ++ [.acquire name timeout]) table := by
  refine moved.keep fun other free => ?_
  rw [leftBy, if_neg]
  rintro rfl
  exact held free

/-- The lock that was granted last is given back. -/
theorem release (moved : base.Moved first ((name, ticket) :: guards) trace table) :
    base.Moved first guards (trace ++ [.release name]) (table.release name) := by
  have baseFree := moved.free _ List.mem_cons_self
  have isOwner := moved.owner? List.mem_cons_self
  rcases List.nodup_cons.mp moved.distinct with ⟨notOther, distinct⟩
  have noGuard : NameMap.lookup name guards = none := by
    rw [← Option.not_isSome_iff_eq_none, NameMap.isSome_lookup_iff]
    exact notOther
  have found : table.entries.get? name = some ⟨some ticket, []⟩ := by
    rw [moved.entry, entryFor, NameMap.lookup, if_pos rfl]
  have isNew : (table.owner? name).any (· < first) = false := by
    rw [isOwner]
    simpa using moved.own _ List.mem_cons_self
  rw [release_of_unawaited found]
  refine ⟨fun other => ?_, (old_erase isNew).trans moved.old,
    fun guard guardMem => moved.own guard (List.mem_cons_of_mem _ guardMem),
    fun guard guardMem => moved.free guard (List.mem_cons_of_mem _ guardMem), distinct⟩
  rw [NameMap.get?_erase, entryFor, moved.entry, entryFor, NameMap.lookup, leftUnder_snoc, leftBy]
  by_cases same : other = name
  · simp [same, noGuard, baseFree]
  · simp [same, Ne.symm same]

/-! ### Runs without guards -/

/-- A run without guards has left every lock to the calls that had and awaited it. -/
theorem line_eq (moved : base.Moved first [] trace table) (baseOrderly : base.Orderly) :
    table.line = base.line := by
  funext name
  by_cases free : base.owner? name = none
  · have stillFree := moved.owner?_eq_none_iff.mpr ⟨rfl, free⟩
    rw [(line_eq_nil_iff baseOrderly).mpr free,
      (line_eq_nil_iff (moved.orderly baseOrderly)).mpr stillFree]
  · rw [line, moved.entry, entryFor, NameMap.lookup]
    dsimp only
    rw [if_neg free]
    rfl

/-- If only names in use had entries, the table is the one from before exactly if the run has left
nothing under a name that nobody used. -/
theorem eq_iff (moved : base.Moved first [] trace table) (issued : base.Issued first)
    (inUse : ∀ name entry, base.entries.get? name = some entry → entry.owner ≠ none) :
    table = base ↔ ∀ name, base.owner? name = none → base.leftUnder name trace = none := by
  have found (name : String) : table.entries.get? name =
      if base.owner? name = none then base.leftUnder name trace else base.entries.get? name :=
    moved.entry name
  have allOld (name : String) (entry : LockEntry)
      (hasEntry : base.entries.get? name = some entry) : entry.owner.any (· < first) = true := by
    rcases Option.ne_none_iff_exists'.mp (inUse name entry hasEntry) with ⟨owner, hasOwner⟩
    have ownerMem : owner ∈ base.line name := by
      rw [line_eq_line hasEntry, LockEntry.line, hasOwner]
      exact List.mem_cons_self
    rw [hasOwner]
    exact decide_eq_true (issued.earlier name owner ownerMem)
  constructor
  · intro same name free
    have left := found name
    rw [same, if_pos free] at left
    rw [← left]
    exact get?_eq_none_of_inUse inUse free
  · intro gone
    refine eq_of_old moved.old (fun name entry hasEntry => ?_) allOld
    rw [found] at hasEntry
    split at hasEntry
    · rename_i free
      cases (gone name free).symm.trans hasEntry
    · exact allOld name entry hasEntry

end Moved

end TestEngine.LockTable

