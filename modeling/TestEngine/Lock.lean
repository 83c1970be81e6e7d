import TestEngine.EngineError
import TestEngine.NameMap

/-!
# Named locks

A lock table has an entry for each name that somebody has asked for. A call gets the lock at once
or stands in line behind the calls before it; a lock that is released goes to the first in line. The
entry of a name is removed when its lock is released and nobody stands in line for it. A call that
gives up leaves the entry as it is, also when it was the last one that used it.
-/

namespace TestEngine

/-- A call for a lock; no two calls share one. -/
abbrev Ticket := Nat

/-- The calls that use a name. -/
structure LockEntry where
  /-- The call that has the lock, be it that its caller knows of it already or not. -/
  owner : Option Ticket
  waiting : List Ticket
  deriving DecidableEq

namespace LockEntry

def handOn (entry : LockEntry) : LockEntry := ⟨entry.waiting.head?, entry.waiting.tail⟩

/-- A call gets the lock if nobody has it, and goes to the end of the line otherwise. -/
def join (entry : LockEntry) (ticket : Ticket) : LockEntry :=
  if entry.owner = none then { entry with owner := some ticket }
  else { entry with waiting := entry.waiting ++ [ticket] }

/-- A call that has the lock hands it on, and any other leaves the line. -/
def leave (entry : LockEntry) (ticket : Ticket) : LockEntry :=
  if entry.owner = some ticket then entry.handOn
  else { entry with waiting := entry.waiting.filter fun other => other ≠ ticket }

end LockEntry

/-- The error of a call that has waited too long, in milliseconds. -/
def lockTimeoutError (name : String) (timeout : Nat) : EngineError :=
  .synchronization ("Lock '" ++ name ++ "' not acquired within " ++ toString timeout ++ "ms")

/-- The locks that are in use. -/
structure LockTable where
  entries : NameMap LockEntry

namespace LockTable

def empty : LockTable := ⟨.empty⟩

instance : Inhabited LockTable := ⟨empty⟩

def size (table : LockTable) : Nat := table.entries.size

def isOwner (table : LockTable) (name : String) (ticket : Ticket) : Bool :=
  ((table.entries.get? name).bind LockEntry.owner) = some ticket

def call (table : LockTable) (name : String) (ticket : Ticket) : LockTable :=
  ⟨table.entries.insert name (((table.entries.get? name).getD ⟨none, []⟩).join ticket)⟩

/-- Withdraws a call, whether it waits or was handed the lock. A lock that it was handed goes to
the next in line. -/
def giveUp (table : LockTable) (name : String) (ticket : Ticket) : LockTable :=
  match table.entries.get? name with
  | none => table
  | some entry => ⟨table.entries.insert name (entry.leave ticket)⟩

def release (table : LockTable) (name : String) : LockTable :=
  match table.entries.get? name with
  | none => table
  | some entry =>
    let entry := entry.handOn
    if entry.owner = none then ⟨table.entries.erase name⟩
    else ⟨table.entries.insert name entry⟩

def owner? (table : LockTable) (name : String) : Option Ticket :=
  (table.entries.get? name).bind LockEntry.owner

end LockTable

end TestEngine
