import TestEngine.Proofs.Pause.Alike
import TestEngine.Proofs.Script.Law

/-!
# Scripts that do not look at the clock

Without loops that are bounded by a duration no step of a script lets a time decide anything: two
visits from frames that differ in times ask the same and leave frames that differ in times. Times
get into the log and into results and never out of them. `Visit.Timeless` says so of one visit, and
it is proved for each way of putting visits together.
-/

namespace TestEngine

/-- A script none of whose loops is bounded by a duration. -/
def Script.Timeless (script : Script) : Prop :=
  script.EveryLoop fun bounds => bounds.maxDuration = 0

/-- Frames that differ in times at most. -/
structure Frame.Alike (frame other : Frame) : Prop where
  context : frame.context = other.context
  log : frame.log.map LogEntry.untimed = other.log.map LogEntry.untimed
  entries : frame.entries.map ScriptEntry.untimed = other.entries.map ScriptEntry.untimed

theorem Frame.Alike.refl (frame : Frame) : frame.Alike frame := ⟨rfl, rfl, rfl⟩

/-- Runs of a script that differ in times at most. -/
structure ScriptRun.Alike (ran other : ScriptRun) : Prop where
  result : ran.result.untimed = other.result.untimed
  ending : ran.ending = other.ending
  context : ran.context = other.context

/-- A way of running a script that does not look at the clock. -/
def Script.RunsTimelessly (run : Context → Program ScriptRun) : Prop :=
  ∀ context, (run context).Alike ScriptRun.Alike (run context)

/-- Outcomes of visits whose values a relation holds of. -/
inductive SameOutcome {α : Type} (same : α → α → Prop) : Except Abort α → Except Abort α → Prop
  | ok {value other : α} (sameValue : same value other) : SameOutcome same (.ok value) (.ok other)
  | error (reason : Abort) : SameOutcome same (.error reason) (.error reason)

namespace Visit

variable {α β : Type}

/-- Visits that ask the same from frames that are alike, and leave frames that are. -/
def Alike (same : α → α → Prop) (visit other : Visit α) : Prop :=
  ∀ frame otherFrame, frame.Alike otherFrame →
    (visit.run.run frame).Alike
      (fun ended otherEnded => SameOutcome same ended.1 otherEnded.1 ∧ ended.2.Alike otherEnded.2)
      (other.run.run otherFrame)

/-- A visit that does not let times decide anything. -/
def Timeless (visit : Visit α) : Prop := Alike Eq visit visit

namespace Alike

variable {relation : α → α → Prop} {same : β → β → Prop}

theorem pure {value other : α} (sameValue : relation value other) :
    Alike relation (Pure.pure value) (Pure.pure other) :=
  fun _ _ alike => .done ⟨.ok sameValue, alike⟩

theorem bind {visit other : Visit α} {next otherNext : α → Visit β}
    (first : Alike relation visit other)
    (rest : ∀ value otherValue, relation value otherValue →
      Alike same (next value) (otherNext otherValue)) :
    Alike same (visit >>= next) (other >>= otherNext) := by
  intro frame otherFrame alike
  change Program.Alike _ (visit.run.run frame >>= fun ended => _)
    (other.run.run otherFrame >>= fun ended => _)
  refine (first frame otherFrame alike).bind ?_
  rintro ⟨outcome, reached⟩ ⟨otherOutcome, otherReached⟩ ⟨sameOutcome, stillAlike⟩
  cases sameOutcome with
  | ok sameValue => exact rest _ _ sameValue reached otherReached stillAlike
  | error reason => exact .done ⟨.error reason, stillAlike⟩

theorem frame : Alike Frame.Alike Visit.frame Visit.frame :=
  fun _ _ alike => .done ⟨.ok alike, alike⟩

theorem modify {change otherChange : Frame → Frame}
    (keeps : ∀ frame otherFrame : Frame, frame.Alike otherFrame →
      (change frame).Alike (otherChange otherFrame)) :
    Alike Eq (Visit.modify change) (Visit.modify otherChange) :=
  fun frame otherFrame alike => .done ⟨.ok rfl, keeps frame otherFrame alike⟩

theorem lift {program other : Program α} (alike : program.Alike relation other) :
    Alike relation (ExceptT.lift (StateT.lift program)) (ExceptT.lift (StateT.lift other)) := by
  have lifted (program : Program α) (frame : Frame) :
      (ExceptT.lift (StateT.lift program) : Visit α).run.run frame =
        program >>= fun value => Pure.pure (.ok value, frame) := by
    change ((program >>= fun value => _) >>= fun ended => _) = _
    rw [bind_assoc]
    rfl
  intro frame otherFrame alikeFrame
  rw [lifted, lifted]
  exact alike.bind fun value otherValue sameValue => .done ⟨.ok sameValue, alikeFrame⟩

end Alike

namespace Timeless

theorem pure (value : α) : Timeless (Pure.pure value) := Alike.pure rfl

theorem abort (reason : Abort) : Timeless (Visit.abort reason : Visit α) :=
  fun _ _ alike => .done ⟨.error reason, alike⟩

theorem fail (error : EngineError) : Timeless (Visit.fail error : Visit α) := abort _

theorem bind {visit : Visit α} {next : α → Visit β} (first : visit.Timeless)
    (rest : ∀ value, (next value).Timeless) : Timeless (visit >>= next) := by
  refine Alike.bind first ?_
  rintro value _ rfl
  exact rest value

theorem ask {request : Request} (timeless : request.isTimeless) : Timeless (Visit.ask request) :=
  Alike.lift (.ask timeless fun _ => .done rfl)

theorem context : Timeless Visit.context :=
  Alike.bind .frame fun _ _ alike => .pure alike.context

theorem store : Timeless Visit.store := bind context fun _ => pure _

theorem modifyStore (change : Store → Store) : Timeless (Visit.modifyStore change) := by
  refine Alike.modify fun frame otherFrame alike => ⟨?_, alike.log, alike.entries⟩
  rw [alike.context]

theorem put (property : Property) : Timeless (Visit.put property) := modifyStore _

theorem ofExcept (outcome : Except EngineError α) : Timeless (Visit.ofExcept outcome) := by
  cases outcome with
  | ok value => exact pure value
  | error error => exact fail error

theorem conclude (outcome : Except Abort α) : Timeless (Visit.conclude outcome) := by
  cases outcome with
  | ok value => exact pure value
  | error reason => exact abort reason

theorem attempt {visit : Visit α} (timeless : visit.Timeless) : Timeless (Visit.attempt visit) := by
  intro frame otherFrame alike
  change Program.Alike _ (visit.run.run frame >>= fun ended => _)
    (visit.run.run otherFrame >>= fun ended => _)
  refine (timeless frame otherFrame alike).bind ?_
  rintro ⟨outcome, reached⟩ ⟨otherOutcome, otherReached⟩ ⟨sameOutcome, stillAlike⟩
  cases sameOutcome with
  | ok sameValue => exact .done ⟨.ok (congrArg _ sameValue), stillAlike⟩
  | error reason => exact .done ⟨.ok rfl, stillAlike⟩

theorem record {entry other : ScriptEntry} (same : entry.untimed = other.untimed) :
    Alike Eq (Visit.record entry) (Visit.record other) := by
  refine .modify fun frame otherFrame alike => ⟨alike.context, alike.log, ?_⟩
  simp [alike.entries, same]

/-- The time of a line is its only part that a clock decides. -/
theorem log (level : LogLevel) (messages : List String) : Timeless (Visit.log level messages) := by
  have anyTime : Alike (fun _ _ => True) (Visit.ask .now) (Visit.ask .now) :=
    Alike.lift (.now fun _ _ => .done trivial)
  refine Alike.bind anyTime fun moment later _ => Alike.bind context ?_
  rintro context _ rfl
  refine .modify fun frame otherFrame alike => ⟨alike.context, ?_, alike.entries⟩
  simp [alike.log, LogEntry.untimed]

theorem moveTo (change : Context → Context) : Timeless (Visit.moveTo change) := by
  refine bind context fun old => bind (Alike.modify fun frame otherFrame alike => ?_) fun _ => ?_
  · exact ⟨rfl, alike.log, alike.entries⟩
  · exact ask rfl

theorem checkpoint : Timeless Visit.checkpoint := by
  refine bind (ask rfl) fun goesOn => ?_
  split
  · exact pure _
  · exact abort _

/-! ### Steps that hold steps -/

theorem sequence {steps : List (Visit Flow)} (timeless : ∀ step ∈ steps, Timeless step) :
    Timeless (Visit.sequence steps) := by
  induction steps with
  | nil => exact pure _
  | cons step rest ih =>
      rw [List.forall_mem_cons] at timeless
      refine bind timeless.1 fun flow => ?_
      cases flow with
      | next => exact ih timeless.2
      | leave => exact pure _

theorem condition (guard : Guard) {body : Visit Flow} (timeless : body.Timeless) :
    Timeless (Visit.condition guard body) := by
  refine bind store fun properties => ?_
  split
  · exact timeless
  · exact pure _

theorem breakLoop (guards : List Guard) : Timeless (Visit.breakLoop guards) :=
  bind store fun _ => pure _

theorem waitBefore (wait : UInt64) (iteration : Nat) :
    Timeless (Visit.waitBefore wait iteration) := by
  rw [Visit.waitBefore]
  split
  · exact bind (ask rfl) fun _ => checkpoint
  · exact pure _

theorem bindIndex (iteration : Nat) (index : Option String) :
    Timeless (Visit.bindIndex iteration index) := by
  cases index with
  | none => exact pure _
  | some index => exact put _

theorem iterate (bounds : LoopBounds) {body : Visit Flow} (timeless : body.Timeless)
    (remaining iteration : Nat) :
    Timeless (Visit.iterate bounds none body remaining iteration) := by
  induction remaining generalizing iteration with
  | zero => exact pure _
  | succ remaining ih =>
      rw [Visit.iterate]
      refine bind (waitBefore _ _) fun _ => bind (pure false) fun isOver => ?_
      split
      · exact pure _
      · refine bind (bindIndex _ _) fun _ => bind timeless fun flow => ?_
        cases flow with
        | next => exact ih _
        | leave => exact pure _

/-- A loop that is not bounded by a duration never asks how much time has passed. -/
theorem loop {bounds : LoopBounds} (noDuration : bounds.maxDuration = 0) {body : Visit Flow}
    (timeless : body.Timeless) : Timeless (Visit.loop bounds body) := by
  have noDeadline : setDeadline bounds.maxDuration = Pure.pure none := by
    rw [setDeadline, if_neg (by simp [noDuration])]
  rw [Visit.loop, noDeadline, pure_bind]
  exact iterate bounds timeless _ _

theorem eachItem (element : String) {body : Visit Flow} (timeless : body.Timeless)
    (items : List Property) : Timeless (Visit.eachItem element body items) := by
  induction items with
  | nil => exact pure _
  | cons item rest ih =>
      refine bind (put _) fun _ => bind timeless fun flow => ?_
      cases flow with
      | next => exact ih
      | leave => exact pure _

theorem foreach (list element : String) {body : Visit Flow} (timeless : body.Timeless) :
    Timeless (Visit.foreach list element body) :=
  bind store fun _ => bind (ofExcept _) fun items =>
    bind (attempt (eachItem element timeless items)) fun outcome =>
      bind (modifyStore _) fun _ => conclude outcome

theorem lock (name : String) (timeout : Nat) {body : Visit Flow} (timeless : body.Timeless) :
    Timeless (Visit.lock name timeout body) := by
  refine bind (ask rfl) fun answer => ?_
  cases answer with
  | granted =>
      exact bind (attempt timeless) fun outcome => bind (ask rfl) fun _ => conclude outcome
  | timedOut => exact fail _
  | cancelled => exact bind checkpoint fun _ => abort _

/-! ### Steps that call capabilities -/

theorem takeReply (reply : Reply (Except EngineError α)) : Timeless (Visit.takeReply reply) := by
  rcases reply with (error | answer) | _ | _
  · exact fail error
  · exact pure answer
  · exact abort _
  · exact abort _

theorem waitAfter (delay : Option UInt64) : Timeless (Visit.waitAfter delay) := by
  cases delay with
  | none => exact pure _
  | some delay => exact ask rfl

theorem enterResponse (action : Action) (response : ActionResponse) :
    Timeless (Visit.enterResponse action response) := by
  rw [Visit.enterResponse]
  split
  · exact bind (record rfl) fun _ => fail _
  · exact bind (modifyStore _) fun _ => bind (record rfl) fun _ => pure _

theorem action (setting : Setting) (action : Action) : Timeless (Visit.action setting action) :=
  bind (ofExcept _) fun _ => bind store fun _ => bind (ofExcept _) fun _ =>
    bind context fun _ => bind (ask rfl) fun _ => bind (takeReply _) fun _ =>
      bind (waitAfter _) fun _ => enterResponse action _

theorem takeVerification (message : String) (answer : Option (Except EngineError Unit)) :
    Timeless (Visit.takeVerification message answer) := by
  rw [Visit.takeVerification.eq_def]
  split
  · exact pure _
  · exact fail _
  · exact fail _
  · exact abort _

theorem assertion (setting : Setting) (assertion : Assertion) :
    Timeless (Visit.assertion setting assertion) := by
  rw [Visit.assertion]
  split
  · exact fail _
  · split
    · rw [Visit.verify]
      split
      · exact bind store fun _ => bind (ofExcept _) fun _ => bind (ask rfl) fun _ =>
          takeVerification _ _
      · exact fail _
    · exact pure _

theorem takeFunctionReply (name : String) (lines : List String)
    (reply : Reply (Except EngineError (List Property))) :
    Timeless (Visit.takeFunctionReply name lines reply) := by
  cases reply with
  | returned answer => exact bind (log _ _) fun _ => ofExcept _
  | abandoned => exact bind (log _ _) fun _ => abort _
  | crashed => exact abort _

theorem function (setting : Setting) (function : Function) :
    Timeless (Visit.function setting function) := by
  rw [Visit.function]
  split
  · exact bind store fun _ => bind (ofExcept _) fun _ => bind (ask rfl) fun _ =>
      bind (takeFunctionReply _ _ _) fun _ => bind (modifyStore _) fun _ => pure _
  · exact fail _

/-! ### Steps that change properties or write lines -/

theorem propertyAction (action : PropertyAction) : Timeless (Visit.propertyAction action) := by
  refine bind store fun properties => bind (modifyStore _) fun _ => ?_
  split
  · exact pure _
  · exact fail _

theorem logger (level : LogLevel) (children : List Step) :
    Timeless (Visit.logger level children) :=
  bind store fun _ => bind (log _ _) fun _ => pure _

theorem textMessage (message : TextMessage) : Timeless (Visit.textMessage message) :=
  bind store fun _ => bind (log _ _) fun _ => pure _

/-! ### Scripts -/

theorem embed (name : String) {run : Context → Program ScriptRun}
    (timeless : Script.RunsTimelessly run) : Timeless (Visit.embed name run) := by
  refine bind context fun context => Alike.bind (Alike.lift (timeless context)) ?_
  rintro ran other alike
  have sameEntry : (ScriptEntry.script ran.result).untimed =
      (ScriptEntry.script other.result).untimed := congrArg ScriptEntry.script alike.result
  have sameFailed : ran.result.isFailed = other.result.isFailed := by
    rw [← ScriptResult.isFailed_untimed, alike.result, ScriptResult.isFailed_untimed]
  have sameMessage : ran.result.message = other.result.message := by
    rw [← ScriptResult.message_untimed, alike.result, ScriptResult.message_untimed]
  refine Alike.bind (Alike.modify fun frame otherFrame alikeFrame =>
    ⟨alike.context, alikeFrame.log, alikeFrame.entries⟩) fun _ _ _ => ?_
  rw [alike.ending]
  cases other.ending with
  | crashed => exact abort _
  | interrupted => exact Alike.bind (record sameEntry) fun _ _ _ => abort _
  | completed =>
      refine Alike.bind (record sameEntry) fun _ _ _ => ?_
      rw [sameFailed, sameMessage]
      split
      · exact fail _
      · exact pure _

end Timeless

theorem completeScript_alike {result other : ScriptResult}
    (same : result.untimed = other.untimed) (verdict : Verdict) (message : Option String)
    (ending : Ending) (context : Context) :
    (completeScript result verdict message ending context).Alike ScriptRun.Alike
      (completeScript other verdict message ending context) := by
  refine .requestNow fun stop later => .done ⟨?_, rfl, rfl⟩
  rw [ScriptResult.untimed_complete, same, ScriptResult.untimed_complete]

theorem concludeScript_alike {result other : ScriptResult}
    (same : result.untimed = other.untimed) (outcome : Except Abort Flow) (context : Context) :
    (concludeScript result outcome context).Alike ScriptRun.Alike
      (concludeScript other outcome context) := by
  rcases outcome with (_ | _ | error) | flow
  · exact completeScript_alike same _ _ _ context
  · exact .done ⟨same, rfl, rfl⟩
  · exact completeScript_alike same _ _ _ context
  · exact completeScript_alike same _ _ _ context

theorem runScript_runsTimelessly (id name : String) {steps : Visit Flow}
    (timeless : steps.Timeless) : Script.RunsTimelessly (runScript id name steps) := by
  intro context
  have visited : Timeless (do
      moveTo fun context => context.enterScript name
      steps) := .bind (.moveTo _) fun _ => timeless
  refine .requestNow fun start later => (visited _ _ (.refl ⟨context, [], []⟩)).bind ?_
  rintro ⟨outcome, frame⟩ ⟨_, otherFrame⟩ ⟨sameOutcome, alike⟩
  have sameResult :
      (⟨id, name, none, some start, none, none, none, frame.log, frame.entries⟩ :
        ScriptResult).untimed =
      (⟨id, name, none, some later, none, none, none, otherFrame.log, otherFrame.entries⟩ :
        ScriptResult).untimed := by
    simp [ScriptResult.untimed, ScriptEntry.untimedAll_eq_map, alike.log, alike.entries]
  dsimp only at alike ⊢
  rw [alike.context]
  cases sameOutcome with
  | ok sameValue =>
      cases sameValue
      exact concludeScript_alike sameResult _ _
  | error reason => exact concludeScript_alike sameResult _ _

/-- No step lets a time decide anything, loops with a duration apart. -/
theorem timelessness (setting : Setting) :
    VisitLaw setting (fun bounds => bounds.maxDuration = 0) Timeless Timeless
      fun _ => Script.RunsTimelessly where
  step _ _ entered := .bind .checkpoint fun _ => .bind (.moveTo _) fun _ => entered
  sequence := .sequence
  script script _ timeless := runScript_runsTimelessly script.id script.name timeless
  execution := id
  condition guard _ := .condition guard
  loop noDuration _ := .loop noDuration
  foreach list element _ := .foreach list element
  lock name timeout _ := .lock name timeout
  embed script _ := .embed script.name
  breakLoop := .breakLoop
  action := .action setting
  assertion := .assertion setting
  function := .function setting
  propertyAction := .propertyAction
  logger := .logger
  textMessage := .textMessage

end Visit

theorem Script.run_runsTimelessly (setting : Setting) {script : Script}
    (timeless : script.Timeless) : Script.RunsTimelessly (script.run setting) :=
  (Visit.timelessness setting).run script timeless

end TestEngine
