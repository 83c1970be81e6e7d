import TestEngine.Proofs.Observation.Record
import TestEngine.Proofs.Script.Related
import TestEngine.Proofs.Walk.Testimony

/-!
# Scripts that are observed

A script is run twice, once as it is to record itself and once mute, where it keeps no traces and
acts for nobody. The runs ask the same, but for what backends are told of this and for what is in
the results that they publish, and come to the same. Besides, the one that records itself does so as
it is to, provided that backends return what they are said to.
-/

namespace TestEngine

variable {α β γ δ : Type}

/-! ### Mute runs -/

def Context.mute (context : Context) : Context := context.observed ⟨false, none⟩

/-- A context that has a run recorded as an observation says. -/
structure Context.Under (observation : Observation) (context : Context) : Prop where
  tracing : context.tracing = observation.tracing
  user : context.user = observation.user

namespace Context

theorem under_observed (observation : Observation) (context : Context) :
    (context.observed observation).Under observation := ⟨rfl, rfl⟩

theorem Under.observed_eq {observation : Observation} {context : Context}
    (under : context.Under observation) : context.observed observation = context := by
  rw [observed, ← under.tracing, ← under.user]

end Context

def ActionCall.mute (call : ActionCall) : ActionCall := { call with context := call.context.mute }

/-- A program and the one that does the same without recording itself, and what the first one has
published records what it is to. -/
inductive Program.Mutes (recording : Recording) (same : α → β → Prop) :
    Program α → Program β → Prop
  | done {value : α} {other : β} (sameValue : same value other) :
      Mutes recording same (.done value) (.done other)
  | ask {request : Request} {next : request.Answer → Program α}
      {otherNext : request.Answer → Program β} (silent : request.isSilent)
      (goesOn : ∀ answer, Mutes recording same (next answer) (otherNext answer)) :
      Mutes recording same (.ask request next) (.ask request otherNext)
  | perform {call : ActionCall} {next : (Request.perform call).Answer → Program α}
      {otherNext : (Request.perform call.mute).Answer → Program β}
      (goesOn : ∀ reply, (∀ answer, reply = .returned (.ok answer) →
        recording.returned call answer) → Mutes recording same (next reply) (otherNext reply)) :
      Mutes recording same (.ask (.perform call) next) (.ask (.perform call.mute) otherNext)
  | publish {results : List ElementResult} {next : Unit → Program α} {otherNext : Unit → Program β}
      (recorded : ∀ top ∈ results, top.Recorded recording)
      (goesOn : Mutes recording same (next ()) (otherNext ())) :
      Mutes recording same (.ask (.publish results) next)
        (.ask (.publish (results.map ElementResult.mute)) otherNext)

theorem Program.Mutes.request {recording : Recording} {same : α → β → Prop} {request : Request}
    {next : request.Answer → Program α} {otherNext : request.Answer → Program β}
    (silent : request.isSilent)
    (goesOn : ∀ answer, (next answer).Mutes recording same (otherNext answer)) :
    (Program.request request >>= next).Mutes recording same
      (Program.request request >>= otherNext) := .ask silent goesOn

namespace Program.Mutes

variable {recording : Recording} {relation : α → β → Prop} {same : γ → δ → Prop}
  {program : Program α} {other : Program β} {next : α → Program γ} {otherNext : β → Program δ}

theorem bind (first : program.Mutes recording relation other)
    (goesOn : ∀ value otherValue, relation value otherValue →
      (next value).Mutes recording same (otherNext otherValue)) :
    (program >>= next).Mutes recording same (other >>= otherNext) := by
  induction first with
  | done sameValue => exact goesOn _ _ sameValue
  | ask silent _ ih => exact .ask silent ih
  | perform _ ih => exact .perform ih
  | publish recorded _ ih => exact .publish recorded ih

/-- What a program ends with is what its protocol says. -/
theorem and_obeys (mutes : program.Mutes recording relation other) {condition : α → Unit → Prop}
    (obeys : program.Obeys visiting () condition) :
    program.Mutes recording (fun value other => relation value other ∧ condition value ())
      other := by
  induction mutes with
  | done sameValue => exact .done ⟨sameValue, obeys⟩
  | ask silent _ ih => exact .ask silent fun answer => ih answer (obeys.2 answer)
  | perform _ ih => exact .perform fun reply returned => ih reply returned (obeys.2 reply)
  | publish recorded _ ih => exact .publish recorded (ih (obeys.2 ()))

end Program.Mutes

/-- The comparison with a mute run, of programs that make no requests but those of visits. -/
def Comparison.muting (recording : Recording) : Comparison where
  relates same program other :=
    program.Obeys visiting () (fun _ _ => True) → program.Mutes recording same other
  done sameValue _ := .done sameValue
  ask := by
    intro α β same request next otherNext goesOn obeys
    -- Visits do not publish, and calls are compared by a rule of their own, `Visit.Mutes.perform`.
    have silent : request.isSilent := by
      cases request with
      | publish results => cases obeys.1
      | _ => rfl
    exact .ask silent fun answer => goesOn answer (obeys.2 answer)
  bind := by
    intro α β γ δ relation same program other next otherNext first goesOn obeys
    rw [Program.obeys_bind] at obeys
    have mutes := (first (obeys.imp fun _ _ _ => trivial)).and_obeys obeys
    exact mutes.bind fun value otherValue ended => goesOn value otherValue ended.1 ended.2

/-! ### Frames -/

def Frame.mute (frame : Frame) : Frame :=
  ⟨frame.context.mute, frame.log.map LogEntry.mute, frame.entries.map ScriptEntry.mute⟩

/-- A frame that records what it is to, and the same frame mute. -/
structure Frame.Mutes (recording : Recording) (frame other : Frame) : Prop where
  context : frame.context.Under recording.toObservation
  log : ∀ entry ∈ frame.log, entry.user = recording.user
  entries : ∀ entry ∈ frame.entries, entry.Recorded recording
  same : other = frame.mute

def ScriptRun.mute (ran : ScriptRun) : ScriptRun :=
  ⟨ran.result.mute, ran.ending, ran.context.mute⟩

/-- A run of a script that has left what it is to record, and the mute run. -/
structure ScriptRun.Mutes (recording : Recording) (ran other : ScriptRun) : Prop where
  recorded : ran.result.Recorded recording
  context : ran.context.Under recording.toObservation
  same : other = ran.mute

/-- A way of running a script that does not depend on what the run is to record. -/
def Recording.Runs (recording : Recording) (run : Context → Program ScriptRun) : Prop :=
  ∀ context : Context, context.Under recording.toObservation →
    (Comparison.muting recording).relates (ScriptRun.Mutes recording) (run context)
      (run context.mute)

/-- Visits that do the same from a frame and from the mute one. -/
abbrev Visit.Mutes (recording : Recording) (visit other : Visit α) : Prop :=
  visit.Related (.muting recording) (Frame.Mutes recording) other

namespace Visit.Mutes

variable {recording : Recording}

theorem context {next otherNext : Context → Visit β}
    (rest : ∀ context : Context, context.Under recording.toObservation →
      (next context).Mutes recording (otherNext context.mute)) :
    (Visit.context >>= next).Mutes recording (Visit.context >>= otherNext) := by
  rintro frame _ ⟨under, log, entries, rfl⟩
  exact rest frame.context under frame frame.mute ⟨under, log, entries, rfl⟩

theorem store {next otherNext : Store → Visit β}
    (rest : ∀ store, (next store).Mutes recording (otherNext store)) :
    (Visit.store >>= next).Mutes recording (Visit.store >>= otherNext) := by
  rintro frame _ ⟨under, log, entries, rfl⟩
  exact rest frame.context.properties frame frame.mute ⟨under, log, entries, rfl⟩

theorem modifyStore (change : Store → Store) :
    (Visit.modifyStore change).Mutes recording (Visit.modifyStore change) := by
  apply Visit.Related.modify
  rintro frame _ ⟨under, log, entries, rfl⟩
  exact ⟨⟨under.tracing, under.user⟩, log, entries, rfl⟩

theorem put (property : Property) :
    (Visit.put property).Mutes recording (Visit.put property) := modifyStore _

theorem record {entry : ScriptEntry} (recorded : entry.Recorded recording) :
    (Visit.record entry).Mutes recording (Visit.record entry.mute) := by
  apply Visit.Related.modify
  rintro frame _ ⟨under, log, entries, rfl⟩
  refine ⟨under, log, List.forall_mem_append.mpr ⟨entries, List.forall_mem_singleton.mpr recorded⟩,
    ?_⟩
  simp [Frame.mute]

theorem log (level : LogLevel) (messages : List String) :
    (Visit.log level messages).Mutes recording (Visit.log level messages) := by
  apply Visit.Related.bind (.ask _)
  intro timestamp
  apply context
  intro caller callerUnder
  apply Visit.Related.modify
  rintro frame _ ⟨under, log, entries, rfl⟩
  refine ⟨under, List.forall_mem_append.mpr ⟨log, ?_⟩, entries, ?_⟩
  · intro entry entryMem
    rcases List.mem_map.mp entryMem with ⟨message, -, rfl⟩
    exact callerUnder.user
  · simp [Frame.mute, Function.comp_def, LogEntry.mute, Context.mute, Context.observed]

/-- Wherever a run goes, it goes on recording itself as before. -/
theorem moveTo {change : Context → Context}
    (observed : ∀ (context : Context) (observation : Observation),
      change (context.observed observation) = (change context).observed observation) :
    (Visit.moveTo change).Mutes recording (Visit.moveTo change) := by
  apply context
  intro caller under
  have moved (observation : Observation) := observed caller observation
  have sameCursor : (change caller.mute).cursor = (change caller).cursor := by
    rw [Context.mute, moved]
    rfl
  dsimp only
  rw [sameCursor]
  refine Visit.Related.bind (.modify ?_) fun _ => .ask _
  rintro frame _ ⟨-, log, entries, rfl⟩
  refine ⟨?_, log, entries, ?_⟩
  · rw [← under.observed_eq, moved]
    exact Context.under_observed _ _
  · simp [Frame.mute, Context.mute, moved]

theorem siblings {visits : List (UInt32 × Visit Flow)}
    (mute : ∀ visit ∈ visits, visit.2.Mutes recording visit.2) :
    (Visit.siblings visits).Mutes recording (Visit.siblings visits) := by
  apply Visit.Related.sequence
  rw [List.forall₂_same]
  intro visit visitMem
  rcases List.mem_map.mp visitMem with ⟨ordered, orderedMem, rfl⟩
  exact mute ordered ((inOrder_perm Prod.fst visits).mem_iff.mp orderedMem)

/-! ### Steps that hold steps -/

section Bodies

variable {body : Visit Flow}

theorem condition (guard : Guard) (mute : body.Mutes recording body) :
    (Visit.condition guard body).Mutes recording (Visit.condition guard body) := by
  apply store
  intro properties
  split
  · exact mute
  · exact .pure _

theorem bindIndex (iteration : Nat) (index : Option String) :
    (Visit.bindIndex iteration index).Mutes recording (Visit.bindIndex iteration index) := by
  cases index with
  | none => exact .pure _
  | some index => exact put _

theorem foreach (list element : String) (mute : body.Mutes recording body) :
    (Visit.foreach list element body).Mutes recording (Visit.foreach list element body) := by
  apply store
  intro properties
  apply Visit.Related.bind (.ofExcept _)
  intro items
  apply Visit.Related.bind (.attempt (.eachItem element (fun item => put _) mute items))
  exact fun outcome => .bind (modifyStore _) fun _ => .conclude outcome

theorem breakLoop (guards : List Guard) :
    (Visit.breakLoop guards).Mutes recording (Visit.breakLoop guards) :=
  store fun _ => .pure _

end Bodies

/-! ### Steps that call capabilities -/

/-- What a backend has returned is what it is said to return. -/
theorem perform {call : ActionCall}
    {next otherNext : Reply (Except EngineError ActionResponse) → Visit β}
    (rest : ∀ reply, (∀ answer, reply = .returned (.ok answer) → recording.returned call answer) →
      (next reply).Mutes recording (otherNext reply)) :
    (Visit.ask (.perform call) >>= next).Mutes recording
      (Visit.ask (.perform call.mute) >>= otherNext) :=
  fun frame other mutes obeys =>
    .perform fun reply returned => rest reply returned frame other mutes (obeys.2 reply)

theorem enterResponse (action : Action) {response : ActionResponse}
    (recorded : response.Recorded recording) :
    (Visit.enterResponse action response).Mutes recording
      (Visit.enterResponse action response.mute) := by
  have recordedEntry : (ScriptEntry.action response).Recorded recording := recorded
  rw [Visit.enterResponse, Visit.enterResponse, ActionResponse.mute]
  dsimp only
  split
  · exact .bind (record recordedEntry) fun _ => .fail _
  · apply Visit.Related.bind (modifyStore _)
    exact fun _ => .bind (record recordedEntry) fun _ => .pure _

theorem action (setting : Setting) (action : Action) :
    (Visit.action setting action).Mutes recording (Visit.action setting action) := by
  apply Visit.Related.bind (.ofExcept _)
  rintro ⟨target, operation⟩
  apply store
  intro properties
  apply Visit.Related.bind (.ofExcept _)
  intro arguments
  apply context
  intro caller under
  apply perform
  intro reply returned
  rcases reply with (error | answer) | _ | _
  · exact .fail error
  · simp only [Visit.takeReply, pure_bind]
    apply Visit.Related.bind (.waitAfter _)
    intro _
    refine enterResponse action ⟨_, answer, returned answer rfl, rfl, ?_⟩
    rw [under.tracing]
    split
    · exact List.forall₂_same.mpr fun trace _ => .inl rfl
    · rfl
  · exact .abort _
  · exact .abort _

theorem assertion (setting : Setting) (assertion : Assertion) :
    (Visit.assertion setting assertion).Mutes recording (Visit.assertion setting assertion) := by
  rw [Visit.assertion]
  split
  · exact .fail _
  · split
    · rw [Visit.verify]
      split
      · apply store
        intro properties
        apply Visit.Related.bind (.ofExcept _)
        intro property
        exact .bind (.ask _) fun answer => .takeVerification _ answer
      · exact .fail _
    · exact .pure _

theorem function (setting : Setting) (function : Function) :
    (Visit.function setting function).Mutes recording (Visit.function setting function) := by
  rw [Visit.function]
  split
  · apply store
    intro properties
    apply Visit.Related.bind (.ofExcept _)
    intro arguments
    apply Visit.Related.bind (.ask _)
    rintro ⟨lines, reply⟩
    apply Visit.Related.bind (.takeFunctionReply (log _ _) reply)
    intro returned
    exact .bind (modifyStore _) fun _ => .pure _
  · exact .fail _

/-! ### Steps that change properties or write lines -/

theorem propertyAction (action : PropertyAction) :
    (Visit.propertyAction action).Mutes recording (Visit.propertyAction action) := by
  apply store
  intro properties
  apply Visit.Related.bind (modifyStore _)
  intro _
  split
  · exact .pure _
  · exact .fail _

theorem logger (level : LogLevel) (children : List Step) :
    (Visit.logger level children).Mutes recording (Visit.logger level children) :=
  store fun _ => .bind (log _ _) fun _ => .pure _

theorem textMessage (message : TextMessage) :
    (Visit.textMessage message).Mutes recording (Visit.textMessage message) :=
  store fun _ => .bind (log _ _) fun _ => .pure _

/-! ### Scripts -/

/-- Whatever a script that is embedded records is recorded around it. -/
theorem embed (name : String) {run : Context → Program ScriptRun} (runs : recording.Runs run) :
    (Visit.embed name run).Mutes recording (Visit.embed name run) := by
  apply context
  intro caller under
  apply Visit.Related.lift (runs caller under)
  rintro ran other ⟨recorded, ranUnder, same⟩
  have recordedEntry : (ScriptEntry.script ran.result).Recorded recording := recorded
  rw [ScriptRun.mute] at same
  subst same
  dsimp only
  rw [ScriptResult.isFailed_mute, ScriptResult.message_mute]
  apply Visit.Related.bind
  · apply Visit.Related.modify
    rintro frame _ ⟨-, log, entries, rfl⟩
    exact ⟨ranUnder, log, entries, rfl⟩
  · intro _
    cases ran.ending with
    | crashed => exact .abort _
    | interrupted => exact .bind (record recordedEntry) fun _ => .abort _
    | completed =>
        apply Visit.Related.bind (record recordedEntry)
        intro _
        split
        · exact .fail _
        · exact .pure _

theorem completeScript {result : ScriptResult} (recorded : result.Recorded recording)
    {context : Context} (under : context.Under recording.toObservation) (verdict : Verdict)
    (message : Option String) (ending : Ending) :
    (Comparison.muting recording).relates (ScriptRun.Mutes recording)
      (Visit.completeScript result verdict message ending context)
      (Visit.completeScript result.mute verdict message ending context.mute) := by
  refine (Comparison.muting recording).ask fun stop => (Comparison.muting recording).done ?_
  refine ⟨?_, under, ?_⟩
  · cases recorded with
    | intro log responses scripts => exact .intro log responses scripts
  · rw [ScriptRun.mute, ScriptResult.mute_complete]

theorem runScript (id name : String) {body : Visit Flow} (mute : body.Mutes recording body) :
    recording.Runs (Visit.runScript id name body) := by
  intro context under
  have enters : (Visit.moveTo (Context.enterScript · name)).Mutes recording
      (Visit.moveTo (Context.enterScript · name)) := moveTo fun _ _ => rfl
  have visit := Visit.Related.bind enters fun _ => mute
  refine (Comparison.muting recording).request fun start => (Comparison.muting recording).bind
    (visit ⟨context, [], []⟩ _ ⟨under, List.forall_mem_nil _, List.forall_mem_nil _, rfl⟩) ?_
  rintro ⟨outcome, frame⟩ ⟨_, _⟩ ⟨rfl, endedUnder, log, entries, rfl⟩
  dsimp only [Frame.mute]
  let result : ScriptResult := ⟨id, name, none, some start, none, none, none, frame.log,
    frame.entries⟩
  have recorded : result.Recorded recording := ScriptResult.recorded_of_entries log entries
  have muteResult : result.mute = ⟨id, name, none, some start, none, none, none,
      frame.log.map LogEntry.mute, frame.entries.map ScriptEntry.mute⟩ := by
    rw [ScriptResult.mute, ScriptEntry.muteAll_eq_map]
  rw [← muteResult]
  rcases outcome with (_ | _ | error) | flow
  · exact completeScript recorded endedUnder _ _ _
  · exact (Comparison.muting recording).done ⟨recorded, endedUnder, rfl⟩
  · exact completeScript recorded endedUnder _ _ _
  · exact completeScript recorded endedUnder _ _ _

end Visit.Mutes

/-! ### The induction over the syntax -/

/-- No step of a script does anything but record what it is to record. -/
theorem Recording.law (recording : Recording) (setting : Setting) :
    VisitLaw setting (fun _ => True) (fun visit => visit.Mutes recording visit)
      (fun visit => visit.Mutes recording visit) fun _ run => recording.Runs run where
  step _ _ entered :=
    .bind .checkpoint fun _ => .bind (Visit.Mutes.moveTo fun _ _ => rfl) fun _ => entered
  sequence mute := .sequence (List.forall₂_same.mpr mute)
  script script _ mute := Visit.Mutes.runScript script.id script.name mute
  execution mute := mute
  condition guard _ mute := Visit.Mutes.condition guard mute
  loop _ _ mute := .loop _ (fun iteration => Visit.Mutes.bindIndex iteration _) mute
  foreach list element _ mute := Visit.Mutes.foreach list element mute
  lock name timeout _ mute := .lock name timeout mute
  embed script _ runs := Visit.Mutes.embed script.name runs
  breakLoop := Visit.Mutes.breakLoop
  action := Visit.Mutes.action setting
  assertion := Visit.Mutes.assertion setting
  function := Visit.Mutes.function setting
  propertyAction := Visit.Mutes.propertyAction
  logger := Visit.Mutes.logger
  textMessage := Visit.Mutes.textMessage

/-- A script comes to the same whether it is observed or mute. -/
theorem Script.run_mutes (recording : Recording) (setting : Setting) (script : Script)
    {context : Context} (under : context.Under recording.toObservation) :
    (script.run setting context).Mutes recording (ScriptRun.Mutes recording)
      (script.run setting context.mute) :=
  (recording.law setting).run script (script.everyLoop_of_forall fun _ => trivial) context under
    ((script.run_runs visitsOnly setting context ()).imp fun _ _ _ => trivial)

end TestEngine
