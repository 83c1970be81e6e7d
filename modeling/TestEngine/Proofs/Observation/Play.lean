import TestEngine.Proofs.Observation.Schedule

/-!
# Observation does not influence runs

A play takes a machine through a schedule: sessions are opened, runs are started in them, clients
send signals, come and go, and the clock is moved on. What its runs record of themselves is the same
for all of them. Plays of one schedule that record different things come to the same but for that,
provided that no backend looks at it, and each of them records what it is to.
-/

namespace TestEngine

variable {ω : Type}

/-! ### Errands -/

/-- Something to be run. -/
inductive Errand where
  | script (script : Script)
  /-- A configuration that is walked without a job. -/
  | walk (configuration : Configuration)
  | job (configuration : Configuration)

/-- What a run has come to, with the context that it has left. -/
inductive Upshot where
  | script (ran : ScriptRun)
  | walk (ran : ConfigurationRun)
  /-- A job that could not begin has left nothing but its status. -/
  | job (status : JobStatus) (ran : Option ConfigurationRun)

def Errand.run (setting : Setting) (context : Context) : Errand → Program Upshot
  | .script source => do return .script (← source.run setting context)
  | .walk configuration => do return .walk (← configuration.run setting context)
  | .job configuration => do
    let ended ← configuration.runKeeping setting context
    return .job ended.1 ended.2

def Upshot.mute : Upshot → Upshot
  | script ran => script ran.mute
  | walk ran => walk ran.mute
  | job status ran => job status (ran.map ConfigurationRun.mute)

section Recording

variable (recording : Recording)

/-- A walk that has recorded what it is to, and has left a context that says so. -/
structure ConfigurationRun.Recorded (ran : ConfigurationRun) : Prop where
  results : ∀ result ∈ ran.results, result.Recorded recording
  context : ran.context.Under recording.toObservation

def Upshot.Recorded : Upshot → Prop
  | script ran => ran.result.Recorded recording ∧ ran.context.Under recording.toObservation
  | walk ran => ran.Recorded recording
  | job _ ran => ∀ kept ∈ ran, kept.Recorded recording

/-- What a run has come to that has recorded what it is to, and what the mute run has come to. -/
def Upshot.Mutes (upshot other : Upshot) : Prop :=
  upshot.Recorded recording ∧ other = upshot.mute

theorem Configuration.runKeeping_mutes (setting : Setting) (configuration : Configuration)
    {context : Context} (under : context.Under recording.toObservation) :
    (configuration.runKeeping setting context).Mutes recording
      (fun ended other => (∀ kept ∈ ended.2, kept.Recorded recording) ∧
        other = (ended.1, ended.2.map ConfigurationRun.mute))
      (configuration.runKeeping setting context.mute) := by
  refine .request rfl fun begun => ?_
  cases begun with
  | some status => exact .done ⟨by simp, rfl⟩
  | none =>
      refine (configuration.run_mutes recording setting under).bind ?_
      rintro ran _ ⟨recorded, ranUnder, rfl⟩
      exact .request rfl fun status => .done ⟨by simpa using ⟨recorded, ranUnder⟩, rfl⟩

/-- Whatever is run, it comes to the same whether it is observed or mute. -/
theorem Errand.run_mutes (setting : Setting) (errand : Errand) {context : Context}
    (under : context.Under recording.toObservation) :
    (errand.run setting context).Mutes recording (Upshot.Mutes recording)
      (errand.run setting context.mute) := by
  cases errand with
  | script script =>
      refine (script.run_mutes recording setting under).bind ?_
      rintro ran _ ⟨recorded, ranUnder, rfl⟩
      exact .done ⟨⟨recorded, ranUnder⟩, rfl⟩
  | walk configuration =>
      refine (configuration.run_mutes recording setting under).bind ?_
      rintro ran _ ⟨recorded, ranUnder, rfl⟩
      exact .done ⟨⟨recorded, ranUnder⟩, rfl⟩
  | job configuration =>
      refine (configuration.runKeeping_mutes recording setting under).bind ?_
      rintro ended _ ⟨recorded, rfl⟩
      exact .done ⟨recorded, rfl⟩

end Recording

/-! ### Plays -/

/-- What the clock may be moved on for. -/
inductive Goal where
  | never
  | allDone
  /-- The job of a session has ended. -/
  | ended (session : Nat)

def Goal.isReached (machine : Machine ω Upshot) : Goal → Bool
  | never => false
  | allDone => machine.isDone
  | ended place => (machine.session place).control.status.isTerminal

/-- A move of a client or of the scheduler. -/
inductive Move where
  | openSession (attended : Bool) (configuration : Configuration) (listeners : List String)
  /-- A run is started in a session. -/
  | start (session : Nat) (setting : Setting) (errand : Errand) (context : Context)
  | signal (session : Nat) (signal : Signal)
  | listen (session : Nat) (listener : String)
  | forget (session : Nat) (listener : String)
  | reject (session : Nat)
  /-- A task is polled out of turn. -/
  | poll (task : Nat)
  /-- The clock is moved to a moment, and the alarms that are due by then go off. -/
  | ring (moment : Nat)
  | settle (fuel : Nat)
  /-- The clock is moved on until a goal is reached, by some milliseconds at most if there is a
  limit. -/
  | advance (pollFuel fuel : Nat) (goal : Goal) (limit : Option Nat)

/-- A machine that has gone through a schedule, with all that has passed between its tasks and their
surroundings. -/
structure Play (ω : Type) where
  machine : Machine ω Upshot
  /-- What has passed, each time with the place of the task. -/
  events : List (Nat × Event)

/-- Makes a move; what the runs record is given, whatever the context says that they start in. -/
def Machine.move (machine : Machine ω Upshot) (observation : Observation) : Move → Play ω
  | .openSession attended configuration listeners =>
    let session := { Session.ofResult attended (.ofConfiguration configuration) with listeners }
    ⟨(machine.openSession session).1, []⟩
  | .start place setting errand context =>
    ⟨machine.spawn place (errand.run setting (context.observed observation)), []⟩
  | .signal place signal => ⟨machine.modifyControl place signal.act, []⟩
  | .listen place listener => ⟨machine.listen place listener, []⟩
  | .forget place listener => ⟨machine.forget place listener, []⟩
  | .reject place =>
    ⟨machine.modifySession place fun session => session.reject machine.world.now, []⟩
  | .poll place => ⟨machine.poll place, machine.transcript place⟩
  | .ring moment => ⟨machine.ring moment, []⟩
  | .settle fuel => ⟨machine.settle fuel, machine.wake.drainTranscript fuel⟩
  | .advance pollFuel fuel goal limit =>
    let moment := limit.map (machine.world.clock + ·)
    ⟨machine.advanceUntil pollFuel (goal.isReached ·) moment fuel,
      machine.untilTranscript pollFuel (goal.isReached ·) moment fuel⟩

/-- Goes through a schedule. -/
def Machine.play (machine : Machine ω Upshot) (observation : Observation) : List Move → Play ω
  | [] => ⟨machine, []⟩
  | move :: rest =>
    let moved := machine.move observation move
    let played := moved.machine.play observation rest
    ⟨played.machine, moved.events ++ played.events⟩

section Mutes

variable {recording : Recording} {cache : TraceCache} {machine other : Machine ω Upshot}

theorem Machine.Mutes.move (mutes : machine.Mutes recording (Upshot.Mutes recording) cache other)
    (move : Move)
    (covers : ∀ event ∈ (machine.move recording.toObservation move).events,
      recording.Covers event.2) :
    let moved := machine.move recording.toObservation move
    let otherMoved := other.move ⟨false, none⟩ move
    After recording (Upshot.Mutes recording) cache moved.machine moved.events otherMoved.machine
      otherMoved.events := by
  cases move with
  | openSession attended configuration listeners =>
      exact ⟨mutes.openSession rfl ⟨List.forall_mem_nil _, List.forall_mem_nil _⟩, rfl⟩
  | start place setting errand context =>
      have under := context.under_observed recording.toObservation
      have runs := errand.run_mutes recording setting under
      exact ⟨mutes.spawn place runs, rfl⟩
  | signal place _ | listen place _ | forget place _ =>
      exact ⟨mutes.modifySession place (fun _ => rfl) fun _ recorded => recorded.congr rfl rfl, rfl⟩
  | reject place =>
      have sameNow : other.world.now = machine.world.now := by
        rw [mutes.world]
        rfl
      simp only [Machine.move, sameNow]
      exact ⟨mutes.modifySession place (fun session => session.reject_mute _)
        fun _ recorded => recorded.reject _, rfl⟩
  | poll place => exact mutes.poll place covers
  | ring moment => exact ⟨mutes.ring moment, rfl⟩
  | settle fuel => exact mutes.wake.drain fuel covers
  | advance pollFuel fuel goal limit =>
      have sameClock : other.world.clock = machine.world.clock := by
        rw [mutes.world]
        rfl
      simp only [Machine.move, sameClock]
      refine mutes.advanceUntil pollFuel (fun machine other mutes => ?_) _ fuel covers
      cases goal with
      | never => rfl
      | allDone => exact mutes.isDone_eq
      | ended place =>
          rw [Goal.isReached, mutes.session_eq, Goal.isReached]
          rfl

theorem Machine.Mutes.value?_eq
    (mutes : machine.Mutes recording (Upshot.Mutes recording) cache other) (place : Nat) :
    other.value? place = (machine.value? place).map Upshot.mute ∧
      ∀ upshot ∈ machine.value? place, upshot.Recorded recording := by
  rw [Machine.value?, Machine.value?]
  rcases getElem?_of_forall₂ mutes.tasks place with ⟨noTask, noOther⟩ |
    ⟨task, otherTask, found, otherFound, related⟩
  · rw [noTask, noOther]
    exact ⟨rfl, by simp⟩
  · rw [found, otherFound, Option.bind_some, Option.bind_some]
    rcases related.stage.value?_cases with ⟨unfinished, otherUnfinished⟩ |
      ⟨upshot, otherUpshot, returned, otherReturned, recorded, rfl⟩
    · rw [unfinished, otherUnfinished]
      exact ⟨rfl, by simp⟩
    · rw [returned, otherReturned]
      exact ⟨rfl, by simpa using recorded⟩

/-- A play that records what it is to goes on side by side with the mute play. -/
theorem Machine.Mutes.play (mutes : machine.Mutes recording (Upshot.Mutes recording) cache other)
    (schedule : List Move)
    (covers : ∀ event ∈ (machine.play recording.toObservation schedule).events,
      recording.Covers event.2) :
    let played := machine.play recording.toObservation schedule
    let otherPlayed := other.play ⟨false, none⟩ schedule
    After recording (Upshot.Mutes recording) cache played.machine played.events otherPlayed.machine
      otherPlayed.events := by
  induction schedule generalizing machine other with
  | nil => exact ⟨mutes, rfl⟩
  | cons move rest ih =>
      rw [Machine.play, List.forall_mem_append] at covers
      have moved := mutes.move move covers.1
      exact moved.trans (ih moved.mutes covers.2)

end Mutes

/-! ### Plays that agree -/

/-- What a play is to record: what backends have returned in it. -/
def Play.recording (play : Play ω) (observation : Observation) : Recording where
  toObservation := observation
  returned call response :=
    ∃ place, (place, .answered (.perform call) (.returned (.ok response))) ∈ play.events

/-- All that is recorded in a play is what it is to record: the results that its sessions show and
that its listeners were told, and those that its runs have left. -/
structure Play.Records (play : Play ω) (observation : Observation) : Prop where
  session (place : Nat) : (play.machine.session place).Recorded (play.recording observation)
  upshot (place : Nat) (upshot : Upshot) (returned : play.machine.value? place = some upshot) :
    upshot.Recorded (play.recording observation)

/-- Plays that do not differ but in what they have recorded. -/
structure Play.Agrees (play other : Play ω) : Prop where
  status (place : Nat) :
    (other.machine.session place).control.status = (play.machine.session place).control.status
  /-- The results, what listeners were told, and all that a session holds else. -/
  session (place : Nat) : (other.machine.session place).mute = (play.machine.session place).mute
  /-- What runs have left, with the properties of their contexts. -/
  upshot (place : Nat) :
    (other.machine.value? place).map Upshot.mute = (play.machine.value? place).map Upshot.mute
  doneAt (place : Nat) : other.machine.doneAt? place = play.machine.doneAt? place
  /-- What runs share, but for the traces whose contents have not been attached. -/
  world : other.machine.world = play.machine.world.withCache other.machine.world.cache
  /-- What was asked, and what the answers were. -/
  events : other.events.map (Prod.map id Event.mute) = play.events.map (Prod.map id Event.mute)

/-- Two plays agree that have the same mute play. -/
theorem Play.agrees_of_mutes {first second mute : Play ω} {recording other : Recording}
    {cache : TraceCache}
    (firstAfter : Machine.Mutes.After recording (Upshot.Mutes recording) cache first.machine
      first.events mute.machine mute.events)
    (secondAfter : Machine.Mutes.After other (Upshot.Mutes other) cache second.machine
      second.events mute.machine mute.events) : first.Agrees second where
  status place := by
    have same := (secondAfter.mutes.session_eq place).symm.trans (firstAfter.mutes.session_eq place)
    exact congrArg (fun session => session.control.status) same
  session place := (secondAfter.mutes.session_eq place).symm.trans
    (firstAfter.mutes.session_eq place)
  upshot place := (secondAfter.mutes.value?_eq place).1.symm.trans
    (firstAfter.mutes.value?_eq place).1
  doneAt place := (secondAfter.mutes.doneAt?_eq place).symm.trans
    (firstAfter.mutes.doneAt?_eq place)
  world := by
    have same := secondAfter.mutes.world.symm.trans firstAfter.mutes.world
    have cached := congrArg (World.withCache · second.machine.world.cache) same
    exact cached
  events := secondAfter.events.symm.trans firstAfter.events

theorem Play.records_of_mutes {play mute : Play ω} {observation : Observation} {cache : TraceCache}
    (after : Machine.Mutes.After (play.recording observation)
      (Upshot.Mutes (play.recording observation)) cache play.machine play.events mute.machine
      mute.events) : play.Records observation where
  session place := after.mutes.session_recorded place
  upshot place := (after.mutes.value?_eq place).2

/-- A play covers all that it is to record. -/
theorem Play.covers (play : Play ω) (observation : Observation) :
    ∀ event ∈ play.events, (play.recording observation).Covers event.2 := by
  rintro ⟨place, event⟩ eventMem
  cases event with
  | asked request => trivial
  | answered request answer =>
      cases request with
      | perform call =>
          rintro response rfl
          exact ⟨place, eventMem⟩
      | _ => trivial

/-- What runs record of themselves influences nothing else, whatever is run on whatever schedule, as
long as no backend looks at it. -/
theorem observation_transparent {registry : Registry ω} (blind : registry.IsBlind)
    (world : World ω) (schedule : List Move) (first second : Observation) :
    let play (observation : Observation) : Play ω :=
      (Machine.initial registry world).play observation schedule
    (play first).Agrees (play second) ∧
      (play first).Records first ∧ (play second).Records second := by
  intro play
  -- Both plays are compared with the mute one, each under the recording of what it was returned.
  have mutes (recording : Recording) : Machine.Mutes recording (Upshot.Mutes recording) world.cache
      (Machine.initial registry world) (Machine.initial registry world) :=
    ⟨blind, rfl, rfl, List.forall_mem_nil _, rfl, .nil, rfl⟩
  have after (observation : Observation) :=
    (mutes ((play observation).recording observation)).play schedule
      ((play observation).covers observation)
  exact ⟨Play.agrees_of_mutes (after first) (after second), Play.records_of_mutes (after first),
    Play.records_of_mutes (after second)⟩

/-! ### A backend that takes pictures -/

/-- The capabilities that are always there, with a backend that leaves a picture in the cache. -/
def Registry.photographing : Registry Unit :=
  Registry.builtin.withBackend "camera" fun call =>
    .finish (.ok { ActionResponse.passed call.action with
      traces := [⟨"photo", .screenshot, "photo.png", true, none⟩] })

theorem Registry.photographing_isBlind : photographing.IsBlind :=
  builtin_isBlind.withBackend "camera" fun _ _ => rfl

/-- A configuration whose script greets and takes a picture. -/
def Configuration.photographed : Configuration where
  id := "c"
  name := "Photographed"
  environment := none
  release := none
  elements :=
    [⟨"e", "E", 1, .automatic, false, [],
      [⟨"s", "Script", 1,
        [⟨"l", 1, .logger .info [⟨"t", 1, .textMessage ⟨"Smile", none⟩⟩]⟩,
          ⟨"a", 2, .action ⟨"Shoot", [⟨"camera", "camera", some "shoot", none⟩], [], none⟩⟩]⟩],
      [], [], some ⟨"s", "S", 0, .many, false, false, .predecessor, false⟩⟩]

/-- Its job is started, and runs to its end. -/
def Move.photographing : List Move :=
  [.openSession true .photographed ["client"],
    .start 0 ⟨Registry.photographing.catalog, 0, true⟩ (.job .photographed) (.ofProperties []),
    .settle 9]

/-- The names of all traces in a result. -/
def ConfigurationResult.traceNames (result : ConfigurationResult) : List String :=
  (result.visitTraces (fun trace names => (trace, names ++ [trace.name])) []).2

/-- A picture is kept for one user and not for the other, and the jobs come to the same. -/
theorem photographed_transparent :
    let world : World Unit := .initial 0 (.insert .empty "photo" [1, 2]) ()
    let play (observation : Observation) : Play Unit :=
      (Machine.initial .photographing world).play observation Move.photographing
    let shot := play ⟨true, some "ada"⟩
    let unshot := play ⟨false, some "bob"⟩
    (shot.machine.session 0).control.status = .finished ∧
      (shot.machine.session 0).result.traceNames = ["photo.png"] ∧
        (unshot.machine.session 0).result.traceNames = [] ∧ shot.Agrees unshot ∧
          shot.Records ⟨true, some "ada"⟩ ∧ unshot.Records ⟨false, some "bob"⟩ :=
  ⟨by decide +kernel, by decide +kernel, by decide +kernel,
    observation_transparent Registry.photographing_isBlind _ Move.photographing
      ⟨true, some "ada"⟩ ⟨false, some "bob"⟩⟩

end TestEngine
