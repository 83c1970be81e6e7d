import TestEngine.Proofs.Machine.Course
import TestEngine.Proofs.Observation.Task
import TestEngine.Proofs.Observation.Walk

/-!
# Machines that are observed

Two machines whose tasks record themselves or not go through the same schedule side by side. The
scheduler sees of a task only whether it is awake, which lock it was handed and what its alarm is
set to, and all of this is the same for a mute task.
-/

namespace TestEngine

variable {ω α β : Type}

/-! ### Lists that are alike -/

section Lists

variable {γ : Type} {R : α → β → Prop} {items : List α} {others : List β}

theorem map_eq_of_forall₂ {f : α → γ} {g : β → γ} (alike : List.Forall₂ R items others)
    (agree : ∀ item other, R item other → g other = f item) : others.map g = items.map f := by
  induction alike with
  | nil => rfl
  | cons first _ ih => rw [List.map_cons, List.map_cons, agree _ _ first, ih]

theorem getElem?_of_forall₂ (alike : List.Forall₂ R items others) (place : Nat) :
    items[place]? = none ∧ others[place]? = none ∨
      ∃ item other, items[place]? = some item ∧ others[place]? = some other ∧ R item other := by
  induction alike generalizing place with
  | nil => exact .inl ⟨rfl, rfl⟩
  | cons first _ ih =>
      cases place with
      | zero => exact .inr ⟨_, _, rfl, rfl, first⟩
      | succ place => exact ih place

theorem set_of_forall₂ (alike : List.Forall₂ R items others) (place : Nat) {item : α} {other : β}
    (related : R item other) : List.Forall₂ R (items.set place item) (others.set place other) := by
  induction alike generalizing place with
  | nil => exact .nil
  | cons first rest ih =>
      cases place with
      | zero => exact .cons related rest
      | succ place => exact .cons first (ih place)

end Lists

/-! ### Tasks -/

namespace Stage.Mutes

variable {recording : Recording} {same : α → β → Prop} {stage : Stage ω α} {other : Stage ω β}

theorem alarm?_eq (mutes : stage.Mutes recording same other) : other.alarm? = stage.alarm? := by
  cases mutes <;> rfl

theorem ticket?_eq (mutes : stage.Mutes recording same other) : other.ticket? = stage.ticket? := by
  cases mutes <;> rfl

theorem isAwake_eq (mutes : stage.Mutes recording same other) (session : Session) (world : World ω)
    (cache : TraceCache) :
    other.isAwake session.mute (world.withCache cache) = stage.isAwake session world := by
  cases mutes with
  | waiting => exact Wait.isAwake_mute _ session world cache
  | _ => rfl

theorem value?_cases (mutes : stage.Mutes recording same other) :
    stage.value? = none ∧ other.value? = none ∨
      ∃ value otherValue, stage.value? = some value ∧ other.value? = some otherValue ∧
        same value otherValue := by
  cases mutes with
  | done sameValue => exact .inr ⟨_, _, rfl, rfl, sameValue⟩
  | _ => exact .inl ⟨rfl, rfl⟩

/-- Both are done at the same moment. -/
theorem map_value? (mutes : stage.Mutes recording same other) (moment : Nat) :
    (other.value?.map fun _ => moment) = stage.value?.map fun _ => moment := by
  cases mutes <;> rfl

theorem isSome_value? (mutes : stage.Mutes recording same other) :
    other.value?.isSome = stage.value?.isSome := by
  cases mutes <;> rfl

end Stage.Mutes

/-- A task and the mute one. -/
structure Task.Mutes (recording : Recording) (same : α → β → Prop) (task : Task ω α)
    (other : Task ω β) : Prop where
  session : other.session = task.session
  doneAt : other.doneAt = task.doneAt
  stage : task.stage.Mutes recording same other.stage

/-! ### Machines -/

/-- A machine whose runs record what they are to, and the machine with the mute runs. -/
structure Machine.Mutes (recording : Recording) (same : α → β → Prop) (cache : TraceCache)
    (machine : Machine ω α) (other : Machine ω β) : Prop where
  blind : machine.registry.IsBlind
  registry : other.registry = machine.registry
  world : other.world = machine.world.withCache cache
  recorded : ∀ session ∈ machine.sessions, session.Recorded recording
  sessions : other.sessions = machine.sessions.map Session.mute
  tasks : List.Forall₂ (Task.Mutes recording same) machine.tasks other.tasks
  queue : other.queue = machine.queue

namespace Machine

section Transcripts

variable (machine : Machine ω α)

/-- What passes between the task at a place and its surroundings when it is polled. -/
def transcript (place : Nat) : List (Nat × Event) :=
  match machine.tasks[place]? with
  | some task =>
    (task.stage.transcript machine.registry (machine.session task.session) machine.world).map
      (place, ·)
  | none => []

end Transcripts

def drainTranscript : (fuel : Nat) → Machine ω α → List (Nat × Event)
  | 0, _ => []
  | fuel + 1, machine =>
    match machine.queue with
    | [] => []
    | place :: rest =>
      let dequeued := { machine with queue := rest }
      dequeued.transcript place ++ drainTranscript fuel (dequeued.poll place).wake

def untilTranscript (pollFuel : Nat) (stop : Machine ω α → Bool) (moment : Option Nat) :
    (fuel : Nat) → Machine ω α → List (Nat × Event)
  | 0, _ => []
  | fuel + 1, machine =>
    if stop machine then []
    else
      match machine.nextDue? with
      | none => []
      | some due =>
        if moment.all fun moment => due ≤ moment then
          let rung := machine.ring (max due machine.world.clock)
          rung.drainTranscript pollFuel ++
            untilTranscript pollFuel stop moment fuel (rung.drain pollFuel)
        else []

/-- An alarm goes off at a moment that it is due by, and queues the tasks that have set it. -/
theorem ring_eq (machine : Machine ω α) (moment : Nat) :
    machine.ring moment =
      { machine with world := { machine.world with clock := moment } }.enqueue
        (((machine.alarms.filter fun alarm : Alarm => alarm.due ≤ moment).mergeSort fun a b =>
          a.due < b.due || (a.due = b.due && a.rank ≤ b.rank)).flatMap fun alarm =>
            machine.placesWhere fun task => task.stage.alarm? = some alarm) := rfl

namespace Mutes

variable {recording : Recording} {same : α → β → Prop} {cache : TraceCache}
  {machine : Machine ω α} {other : Machine ω β}

theorem session_eq (mutes : machine.Mutes recording same cache other) (place : Nat) :
    other.session place = (machine.session place).mute := by
  rw [session, session, mutes.sessions, List.getElem?_map]
  cases machine.sessions[place]? <;> rfl

theorem session_recorded (mutes : machine.Mutes recording same cache other) (place : Nat) :
    (machine.session place).Recorded recording := by
  rw [session]
  cases found : machine.sessions[place]? with
  | none => exact ⟨List.forall_mem_nil _, List.forall_mem_nil _⟩
  | some session => exact mutes.recorded session (List.mem_of_getElem? found)

/-! #### What the scheduler sees -/

theorem placesWhere_eq (mutes : machine.Mutes recording same cache other)
    {test : Task ω α → Bool} {otherTest : Task ω β → Bool}
    (agree : ∀ task otherTask, Task.Mutes recording same task otherTask →
      otherTest otherTask = test task) :
    other.placesWhere otherTest = machine.placesWhere test := by
  rw [placesWhere, placesWhere, mutes.tasks.length_eq]
  refine List.filter_congr fun place _ => ?_
  rcases getElem?_of_forall₂ mutes.tasks place with ⟨none, otherNone⟩ |
    ⟨task, otherTask, found, otherFound, related⟩
  · rw [none, otherNone]
    rfl
  · rw [found, otherFound]
    exact agree task otherTask related

theorem alarms_eq (mutes : machine.Mutes recording same cache other) :
    other.alarms = machine.alarms := by
  have sameAlarms := map_eq_of_forall₂ mutes.tasks fun _ _ related => related.stage.alarm?_eq
  have shown := congrArg (List.filterMap id) sameAlarms
  rwa [List.filterMap_map, List.filterMap_map] at shown

theorem isDone_eq (mutes : machine.Mutes recording same cache other) :
    other.isDone = machine.isDone := by
  have sameDone := map_eq_of_forall₂ mutes.tasks fun _ _ related => related.stage.isSome_value?
  have shown := congrArg (List.all · id) sameDone
  rwa [List.all_map, List.all_map] at shown

theorem doneAt?_eq (mutes : machine.Mutes recording same cache other) (place : Nat) :
    other.doneAt? place = machine.doneAt? place := by
  rw [doneAt?, doneAt?]
  rcases getElem?_of_forall₂ mutes.tasks place with ⟨noTask, noOther⟩ |
    ⟨task, otherTask, found, otherFound, related⟩
  · rw [noTask, noOther]
    rfl
  · rw [found, otherFound]
    exact related.doneAt

/-! #### What clients and the scheduler do -/

theorem withWorld (mutes : machine.Mutes recording same cache other) (world : World ω) :
    Machine.Mutes recording same cache { machine with world }
      { other with world := world.withCache cache } :=
  { mutes with world := rfl }

theorem enqueue (mutes : machine.Mutes recording same cache other) (places : List Nat) :
    (machine.enqueue places).Mutes recording same cache (other.enqueue places) :=
  { mutes with queue := by rw [Machine.enqueue, mutes.queue, Machine.enqueue] }

theorem modifySession (mutes : machine.Mutes recording same cache other) (place : Nat)
    {change : Session → Session}
    (muteChange : ∀ session, change session.mute = (change session).mute)
    (keeps : ∀ session : Session, session.Recorded recording →
      (change session).Recorded recording) :
    (machine.modifySession place change).Mutes recording same cache
      (other.modifySession place change) where
  blind := mutes.blind
  registry := mutes.registry
  world := mutes.world
  recorded := by
    intro session (sessionMem : session ∈ machine.sessions.modify place change)
    rcases List.getElem_of_mem sessionMem with ⟨index, inBounds, rfl⟩
    have recorded := mutes.recorded _ (List.getElem_mem (List.length_modify .. ▸ inBounds))
    rw [List.getElem_modify]
    split
    · exact keeps _ recorded
    · exact recorded
  sessions := by
    refine List.ext_getElem? fun index => ?_
    simp only [Machine.modifySession, mutes.sessions, List.getElem?_modify, List.getElem?_map]
    cases machine.sessions[index]? with
    | none => rfl
    | some session =>
        by_cases here : place = index
        · simp [here, muteChange]
        · simp [here]
  tasks := mutes.tasks
  queue := mutes.queue

theorem openSession (mutes : machine.Mutes recording same cache other) {session : Session}
    (mute : session.mute = session) (recorded : session.Recorded recording) :
    (machine.openSession session).1.Mutes recording same cache (other.openSession session).1 where
  blind := mutes.blind
  registry := mutes.registry
  world := mutes.world
  recorded := List.forall_mem_append.mpr
    ⟨mutes.recorded, List.forall_mem_singleton.mpr recorded⟩
  sessions := by
    rw [Machine.openSession, mutes.sessions, Machine.openSession, List.map_append,
      List.map_singleton, mute]
  tasks := mutes.tasks
  queue := mutes.queue

theorem spawn (mutes : machine.Mutes recording same cache other) (session : Nat)
    {program : Program α} {otherProgram : Program β}
    (programMutes : program.Mutes recording same otherProgram) :
    (machine.spawn session program).Mutes recording same cache
      (other.spawn session otherProgram) where
  blind := mutes.blind
  registry := mutes.registry
  world := mutes.world
  recorded := mutes.recorded
  sessions := mutes.sessions
  tasks := List.rel_append mutes.tasks (.cons ⟨rfl, rfl, .ready programMutes⟩ .nil)
  queue := by rw [Machine.spawn, mutes.queue, ← mutes.tasks.length_eq, Machine.spawn]

theorem wake (mutes : machine.Mutes recording same cache other) :
    machine.wake.Mutes recording same cache other.wake := by
  have sameOwners (ticket : Ticket) :
      other.placesWhere (fun task => task.stage.ticket? = some ticket) =
        machine.placesWhere fun task => task.stage.ticket? = some ticket :=
    mutes.placesWhere_eq fun task otherTask related => by rw [related.stage.ticket?_eq]
  have sameAwake : other.placesWhere
        (fun task => task.stage.isAwake (other.session task.session) other.world) =
      machine.placesWhere
        fun task => task.stage.isAwake (machine.session task.session) machine.world := by
    refine mutes.placesWhere_eq fun task otherTask related => ?_
    rw [related.session, mutes.session_eq, mutes.world, related.stage.isAwake_eq]
  rw [Machine.wake, Machine.wake, sameAwake]
  simp only [sameOwners]
  rw [mutes.world]
  exact (mutes.withWorld { machine.world with handed := [] }).enqueue _

theorem ring (mutes : machine.Mutes recording same cache other) (moment : Nat) :
    (machine.ring moment).Mutes recording same cache (other.ring moment) := by
  have sameOwners (alarm : Alarm) :
      other.placesWhere (fun task => task.stage.alarm? = some alarm) =
        machine.placesWhere fun task => task.stage.alarm? = some alarm :=
    mutes.placesWhere_eq fun task otherTask related => by rw [related.stage.alarm?_eq]
  rw [ring_eq, ring_eq, mutes.world, mutes.alarms_eq]
  simp only [sameOwners]
  exact (mutes.withWorld { machine.world with clock := moment }).enqueue _

theorem setClock (mutes : machine.Mutes recording same cache other) (moment : Option Nat) :
    (machine.setClock moment).Mutes recording same cache (other.setClock moment) := by
  cases moment with
  | none => exact mutes
  | some moment =>
      rw [Machine.setClock, Machine.setClock, mutes.world]
      exact mutes.withWorld { machine.world with clock := moment }

/-! #### Polls -/

/-- What has become of the machine and of the mute one, and what has passed meanwhile. -/
structure After (recording : Recording) (same : α → β → Prop) (cache : TraceCache)
    (machine : Machine ω α) (events : List (Nat × Event)) (other : Machine ω β)
    (otherEvents : List (Nat × Event)) : Prop where
  mutes : machine.Mutes recording same cache other
  events : otherEvents.map (Prod.map id Event.mute) = events.map (Prod.map id Event.mute)

theorem poll (mutes : machine.Mutes recording same cache other) (place : Nat)
    (covers : ∀ event ∈ machine.transcript place, recording.Covers event.2) :
    After recording same cache (machine.poll place) (machine.transcript place) (other.poll place)
      (other.transcript place) := by
  rw [Machine.poll, Machine.poll]
  rw [Machine.transcript] at covers ⊢
  rw [Machine.transcript]
  rcases getElem?_of_forall₂ mutes.tasks place with ⟨noTask, noOther⟩ |
    ⟨task, otherTask, found, otherFound, related⟩
  · rw [noTask, noOther]
    exact ⟨mutes, rfl⟩
  · rw [found] at covers
    rw [found, otherFound]
    dsimp only at covers ⊢
    rw [mutes.registry, related.session, mutes.session_eq, mutes.world]
    have recorded := mutes.session_recorded task.session
    rcases Stage.poll_mutes mutes.blind related.stage recorded machine.world
      (fun event eventMem => covers _ (List.mem_map_of_mem eventMem)) with ⟨after, sameEvents⟩
    refine ⟨⟨mutes.blind, rfl, after.world, ?_, ?_, ?_, mutes.queue⟩, ?_⟩
    · intro session sessionMem
      rcases List.mem_or_eq_of_mem_set sessionMem with before | rfl
      · exact mutes.recorded session before
      · exact after.recorded
    · rw [after.session, mutes.sessions, List.map_set]
    · refine set_of_forall₂ mutes.tasks place ⟨rfl, ?_, after.stage⟩
      rw [related.doneAt, after.stage.map_value?, after.world]
      rfl
    · have placed := congrArg (List.map (place, ·)) sameEvents
      rwa [List.map_map, List.map_map] at placed ⊢

theorem After.trans {events otherEvents later otherLater : List (Nat × Event)}
    {last : Machine ω α} {otherLast : Machine ω β}
    (first : After recording same cache machine events other otherEvents)
    (goesOn : After recording same cache last later otherLast otherLater) :
    After recording same cache last (events ++ later) otherLast (otherEvents ++ otherLater) :=
  ⟨goesOn.mutes, by rw [List.map_append, List.map_append, first.events, goesOn.events]⟩

theorem drain (mutes : machine.Mutes recording same cache other) (fuel : Nat)
    (covers : ∀ event ∈ machine.drainTranscript fuel, recording.Covers event.2) :
    After recording same cache (machine.drain fuel) (machine.drainTranscript fuel)
      (other.drain fuel) (other.drainTranscript fuel) := by
  induction fuel generalizing machine other with
  | zero => exact ⟨mutes, rfl⟩
  | succ fuel ih =>
      have otherQueue := mutes.queue
      cases queue : machine.queue with
      | nil =>
          rw [queue] at otherQueue
          simp only [Machine.drain, drainTranscript, queue, otherQueue]
          exact ⟨mutes, rfl⟩
      | cons place rest =>
          rw [queue] at otherQueue
          simp only [drainTranscript, queue, List.forall_mem_append] at covers
          simp only [Machine.drain, drainTranscript, queue, otherQueue]
          have dequeued : Machine.Mutes recording same cache { machine with queue := rest }
              { other with queue := rest } :=
            { mutes with queue := rfl }
          have polled := dequeued.poll place covers.1
          exact polled.trans (ih polled.mutes.wake covers.2)

theorem advanceUntil (mutes : machine.Mutes recording same cache other) (pollFuel : Nat)
    {stop : Machine ω α → Bool} {otherStop : Machine ω β → Bool}
    (sameStop : ∀ (machine : Machine ω α) (other : Machine ω β),
      machine.Mutes recording same cache other → otherStop other = stop machine)
    (moment : Option Nat) (fuel : Nat)
    (covers : ∀ event ∈ machine.untilTranscript pollFuel stop moment fuel,
      recording.Covers event.2) :
    After recording same cache (machine.advanceUntil pollFuel stop moment fuel)
      (machine.untilTranscript pollFuel stop moment fuel)
      (other.advanceUntil pollFuel otherStop moment fuel)
      (other.untilTranscript pollFuel otherStop moment fuel) := by
  induction fuel generalizing machine other with
  | zero => exact ⟨mutes, rfl⟩
  | succ fuel ih =>
      have sameDue : other.nextDue? = machine.nextDue? := by
        rw [nextDue?, mutes.alarms_eq, nextDue?]
      have sameClock : other.world.clock = machine.world.clock := by
        rw [mutes.world]
        rfl
      rw [untilTranscript] at covers
      rw [Machine.advanceUntil, Machine.advanceUntil, untilTranscript, untilTranscript,
        sameStop machine other mutes, sameDue, sameClock]
      by_cases stops : stop machine = true
      · simp only [if_pos stops]
        exact ⟨mutes, rfl⟩
      · simp only [if_neg stops] at covers ⊢
        cases nextDue : machine.nextDue? with
        | none => exact ⟨mutes.setClock moment, rfl⟩
        | some due =>
            simp only [nextDue] at covers ⊢
            split
            · rename_i inTime
              rw [if_pos inTime] at covers
              rcases List.forall_mem_append.mp covers with ⟨coversDrain, coversRest⟩
              have drained := (mutes.ring (max due machine.world.clock)).drain pollFuel coversDrain
              exact drained.trans (ih drained.mutes coversRest)
            · exact ⟨mutes.setClock moment, rfl⟩

end Mutes

end Machine

end TestEngine
