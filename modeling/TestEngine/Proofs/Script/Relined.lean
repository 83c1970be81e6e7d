import TestEngine.Proofs.Script.Related

/-!
# Lines that no step reads

What a script has written into its log has no say in what its steps do. Two visits that would write
different lines, and agree otherwise, ask the same and leave the same behind but for those lines.
Which lines may stand for each other is a parameter, so the same rules serve for visits that write
the very same lines.
-/

namespace TestEngine

variable (lines : String → String → Prop)

/-! ### Results -/

/-- Lines of the same moment, level and user whose messages may stand for each other. -/
structure LogEntry.Relined (entry other : LogEntry) : Prop where
  timestamp : entry.timestamp = other.timestamp
  level : entry.level = other.level
  user : entry.user = other.user
  message : lines entry.message other.message

mutual

/-- Results that agree in everything but the messages of their lines, at every depth. -/
inductive ScriptResult.Relined : ScriptResult → ScriptResult → Prop
  | intro {scriptId name : String} {verdict : Option Verdict} {start stop : Option Calendar.Instant}
      {duration : Option Int} {message : Option String} {log otherLog : List LogEntry}
      {entries otherEntries : List ScriptEntry}
      (log_relined : List.Forall₂ (LogEntry.Relined lines) log otherLog)
      (entries_relined : ScriptEntry.AllRelined entries otherEntries) :
      ScriptResult.Relined ⟨scriptId, name, verdict, start, stop, duration, message, log, entries⟩
        ⟨scriptId, name, verdict, start, stop, duration, message, otherLog, otherEntries⟩

inductive ScriptEntry.Relined : ScriptEntry → ScriptEntry → Prop
  | action (response : ActionResponse) : ScriptEntry.Relined (.action response) (.action response)
  | script {result other : ScriptResult} (relined : ScriptResult.Relined result other) :
      ScriptEntry.Relined (.script result) (.script other)

inductive ScriptEntry.AllRelined : List ScriptEntry → List ScriptEntry → Prop
  | nil : ScriptEntry.AllRelined [] []
  | cons {entry other : ScriptEntry} {entries others : List ScriptEntry}
      (first : ScriptEntry.Relined entry other) (rest : ScriptEntry.AllRelined entries others) :
      ScriptEntry.AllRelined (entry :: entries) (other :: others)

end

/-- Frames that agree in everything but the messages of their lines. -/
structure Frame.Relined (frame other : Frame) : Prop where
  context : frame.context = other.context
  log : List.Forall₂ (LogEntry.Relined lines) frame.log other.log
  entries : ScriptEntry.AllRelined lines frame.entries other.entries

/-- Runs that agree in everything but the messages of their lines. -/
structure ScriptRun.Relined (ran other : ScriptRun) : Prop where
  result : ran.result.Relined lines other.result
  ending : ran.ending = other.ending
  context : ran.context = other.context

variable {lines}

theorem ScriptResult.Relined.isFailed {result other : ScriptResult}
    (relined : result.Relined lines other) : result.isFailed = other.isFailed := by
  cases relined with
  | intro => rfl

theorem ScriptResult.Relined.message {result other : ScriptResult}
    (relined : result.Relined lines other) : result.message = other.message := by
  cases relined with
  | intro => rfl

theorem ScriptEntry.AllRelined.append {entries others later otherLater : List ScriptEntry}
    (relined : AllRelined lines entries others) (laterRelined : AllRelined lines later otherLater) :
    AllRelined lines (entries ++ later) (others ++ otherLater) := by
  induction entries generalizing others with
  | nil =>
      cases relined
      exact laterRelined
  | cons entry entries ih =>
      cases relined with
      | cons first rest => exact .cons first (ih rest)

theorem LogEntry.Relined.eq {entry other : LogEntry} (relined : entry.Relined Eq other) :
    entry = other := by
  rcases entry with ⟨timestamp, level, user, message⟩
  rcases relined with ⟨rfl, rfl, rfl, rfl⟩
  rfl

theorem LogEntry.eq_of_forall₂_relined {log otherLog : List LogEntry}
    (relined : List.Forall₂ (LogEntry.Relined Eq) log otherLog) : log = otherLog :=
  List.forall₂_eq_eq_eq ▸ relined.imp fun _ _ => LogEntry.Relined.eq

mutual

theorem ScriptResult.Relined.eq {result other : ScriptResult} :
    result.Relined Eq other → result = other
  | .intro log_relined entries_relined => by
      rw [LogEntry.eq_of_forall₂_relined log_relined, entries_relined.eq]

theorem ScriptEntry.Relined.eq {entry other : ScriptEntry} :
    entry.Relined Eq other → entry = other
  | .action _ => rfl
  | .script relined => congrArg _ relined.eq

theorem ScriptEntry.AllRelined.eq {entries others : List ScriptEntry} :
    ScriptEntry.AllRelined Eq entries others → entries = others
  | .nil => rfl
  | .cons first rest => by rw [first.eq, rest.eq]

end

theorem ScriptRun.Relined.eq {ran other : ScriptRun} (relined : ran.Relined Eq other) :
    ran = other := by
  rcases ran with ⟨result, ending, context⟩
  rcases other with ⟨otherResult, _, _⟩
  rcases relined with ⟨sameResult, rfl, rfl⟩
  exact congrArg (ScriptRun.mk · ending context) sameResult.eq

/-! ### Visits -/

namespace Visit

variable {α β : Type}

/-- Visits that ask the same and end in the same way from frames that differ in the messages of
their lines, and leave such frames. -/
def Relined (lines : String → String → Prop) (visit other : Visit α) : Prop :=
  ∀ frame otherFrame, frame.Relined lines otherFrame →
    (visit.run.run frame).Matches
      (fun ended otherEnded => ended.1 = otherEnded.1 ∧ ended.2.Relined lines otherEnded.2)
      (other.run.run otherFrame)

namespace Relined

/-- The rules for all comparisons of visits are there for this one. -/
theorem ofRelated {visit other : Visit α}
    (related : visit.Related .matching (Frame.Relined lines) other) : visit.Relined lines other :=
  related

theorem pure (value : α) : Relined lines (Pure.pure value) (Pure.pure value) :=
  ofRelated (.pure value)

theorem abort (reason : Abort) :
    Relined lines (Visit.abort reason : Visit α) (Visit.abort reason) :=
  ofRelated (.abort reason)

theorem fail (error : EngineError) :
    Relined lines (Visit.fail error : Visit α) (Visit.fail error) := abort _

theorem bind {visit other : Visit α} {next otherNext : α → Visit β}
    (first : visit.Relined lines other) (rest : ∀ value, (next value).Relined lines
      (otherNext value)) : (visit >>= next).Relined lines (other >>= otherNext) :=
  ofRelated (.bind first rest)

theorem lift {program other : Program α} {relation : α → α → Prop} {next otherNext : α → Visit β}
    (first : program.Matches relation other)
    (rest : ∀ value otherValue, relation value otherValue →
      (next value).Relined lines (otherNext otherValue)) :
    Relined lines (ExceptT.lift (StateT.lift program) >>= next)
      (ExceptT.lift (StateT.lift other) >>= otherNext) :=
  ofRelated (.lift first rest)

theorem ask (request : Request) : Relined lines (Visit.ask request) (Visit.ask request) :=
  ofRelated (.ask request)

theorem context : Relined lines Visit.context Visit.context :=
  fun _ _ relined => .done ⟨congrArg Except.ok relined.context, relined⟩

theorem store : Relined lines Visit.store Visit.store := bind context fun _ => pure _

theorem modify {change otherChange : Frame → Frame}
    (keeps : ∀ frame otherFrame : Frame, frame.Relined lines otherFrame →
      (change frame).Relined lines (otherChange otherFrame)) :
    Relined lines (Visit.modify change) (Visit.modify otherChange) :=
  ofRelated (.modify keeps)

theorem modifyStore (change : Store → Store) :
    Relined lines (Visit.modifyStore change) (Visit.modifyStore change) := by
  refine modify fun frame otherFrame relined => ⟨?_, relined.log, relined.entries⟩
  rw [relined.context]

theorem put (property : Property) : Relined lines (Visit.put property) (Visit.put property) :=
  modifyStore _

theorem ofExcept (outcome : Except EngineError α) :
    Relined lines (Visit.ofExcept outcome) (Visit.ofExcept outcome) :=
  ofRelated (.ofExcept outcome)

theorem conclude (outcome : Except Abort α) :
    Relined lines (Visit.conclude outcome) (Visit.conclude outcome) :=
  ofRelated (.conclude outcome)

theorem attempt {visit other : Visit α} (relined : visit.Relined lines other) :
    Relined lines (Visit.attempt visit) (Visit.attempt other) := ofRelated (.attempt relined)

theorem record {entry other : ScriptEntry} (relined : entry.Relined lines other) :
    Relined lines (Visit.record entry) (Visit.record other) :=
  modify fun _ _ framesRelined =>
    ⟨framesRelined.context, framesRelined.log, framesRelined.entries.append (.cons relined .nil)⟩

theorem log (level : LogLevel) {messages others : List String}
    (standFor : List.Forall₂ lines messages others) :
    Relined lines (Visit.log level messages) (Visit.log level others) := by
  refine bind (ask .now) fun timestamp => bind context fun context => modify ?_
  intro frame otherFrame relined
  refine ⟨relined.context, List.rel_append relined.log ?_, relined.entries⟩
  rw [List.forall₂_map_left_iff, List.forall₂_map_right_iff]
  exact standFor.imp fun _ _ message => ⟨rfl, rfl, rfl, message⟩

theorem moveTo (change : Context → Context) :
    Relined lines (Visit.moveTo change) (Visit.moveTo change) := by
  refine bind context fun old => bind (modify fun frame otherFrame relined => ?_) fun _ => ask _
  exact ⟨rfl, relined.log, relined.entries⟩

theorem checkpoint : Relined lines Visit.checkpoint Visit.checkpoint :=
  ofRelated .checkpoint

/-! ### Steps that hold steps -/

theorem sequence {steps others : List (Visit Flow)}
    (relined : List.Forall₂ (Relined lines) steps others) :
    Relined lines (Visit.sequence steps) (Visit.sequence others) :=
  ofRelated (.sequence relined)

section Bodies

variable {body otherBody : Visit Flow}

theorem condition (guard : Guard) (relined : body.Relined lines otherBody) :
    Relined lines (Visit.condition guard body) (Visit.condition guard otherBody) := by
  refine bind store fun properties => ?_
  split
  · exact relined
  · exact pure _

theorem bindIndex (iteration : Nat) (index : Option String) :
    Relined lines (Visit.bindIndex iteration index) (Visit.bindIndex iteration index) := by
  cases index with
  | none => exact pure _
  | some index => exact put _

theorem loop (bounds : LoopBounds) (relined : body.Relined lines otherBody) :
    Relined lines (Visit.loop bounds body) (Visit.loop bounds otherBody) :=
  ofRelated (.loop bounds (fun iteration => bindIndex iteration _) relined)

theorem eachItem (element : String) (relined : body.Relined lines otherBody)
    (items : List Property) : Relined lines (Visit.eachItem element body items)
      (Visit.eachItem element otherBody items) := by
  apply ofRelated
  apply Related.eachItem
  · exact fun _ => put _
  · exact relined

theorem foreach (list element : String) (relined : body.Relined lines otherBody) :
    Relined lines (Visit.foreach list element body) (Visit.foreach list element otherBody) :=
  bind store fun _ => bind (ofExcept _) fun items =>
    bind (attempt (eachItem element relined items)) fun outcome =>
      bind (modifyStore _) fun _ => conclude outcome

theorem lock (name : String) (timeout : Nat) (relined : body.Relined lines otherBody) :
    Relined lines (Visit.lock name timeout body) (Visit.lock name timeout otherBody) :=
  ofRelated (.lock name timeout relined)

end Bodies

theorem breakLoop (guards : List Guard) :
    Relined lines (Visit.breakLoop guards) (Visit.breakLoop guards) := bind store fun _ => pure _

/-! ### Steps that call capabilities -/

theorem takeReply (reply : Reply (Except EngineError α)) :
    Relined lines (Visit.takeReply reply) (Visit.takeReply reply) :=
  ofRelated (.takeReply reply)

theorem waitAfter (delay : Option UInt64) :
    Relined lines (Visit.waitAfter delay) (Visit.waitAfter delay) :=
  ofRelated (.waitAfter delay)

theorem enterResponse (action : Action) (response : ActionResponse) :
    Relined lines (Visit.enterResponse action response) (Visit.enterResponse action response) := by
  rw [Visit.enterResponse]
  split
  · exact bind (record (.action _)) fun _ => fail _
  · exact bind (modifyStore _) fun _ => bind (record (.action _)) fun _ => pure _

theorem action (setting : Setting) (action : Action) :
    Relined lines (Visit.action setting action) (Visit.action setting action) :=
  bind (ofExcept _) fun _ => bind store fun _ => bind (ofExcept _) fun _ =>
    bind context fun _ => bind (ask _) fun _ => bind (takeReply _) fun _ =>
      bind (waitAfter _) fun _ => enterResponse action _

theorem takeVerification (message : String) (answer : Option (Except EngineError Unit)) :
    Relined lines (Visit.takeVerification message answer)
      (Visit.takeVerification message answer) :=
  ofRelated (.takeVerification message answer)

theorem assertion (setting : Setting) (assertion : Assertion) :
    Relined lines (Visit.assertion setting assertion) (Visit.assertion setting assertion) := by
  rw [Visit.assertion]
  split
  · exact fail _
  · split
    · rw [Visit.verify]
      split
      · exact bind store fun _ => bind (ofExcept _) fun _ => bind (ask _) fun _ =>
          takeVerification _ _
      · exact fail _
    · exact pure _

section Lines

variable (reflexive : ∀ message, lines message message)

include reflexive

theorem logSame (level : LogLevel) (messages : List String) :
    Relined lines (Visit.log level messages) (Visit.log level messages) :=
  log level (List.forall₂_same.mpr fun message _ => reflexive message)

theorem takeFunctionReply (name : String) (logged : List String)
    (reply : Reply (Except EngineError (List Property))) :
    Relined lines (Visit.takeFunctionReply name logged reply)
      (Visit.takeFunctionReply name logged reply) := by
  apply ofRelated
  apply Related.takeFunctionReply
  exact logSame reflexive _ _

theorem function (setting : Setting) (function : Function) :
    Relined lines (Visit.function setting function) (Visit.function setting function) := by
  rw [Visit.function]
  split
  · exact bind store fun _ => bind (ofExcept _) fun _ => bind (ask _) fun _ =>
      bind (takeFunctionReply reflexive _ _ _) fun _ => bind (modifyStore _) fun _ => pure _
  · exact fail _

theorem textMessage (message : TextMessage) :
    Relined lines (Visit.textMessage message) (Visit.textMessage message) :=
  bind store fun _ => bind (logSame reflexive _ _) fun _ => pure _

end Lines

/-! ### Steps that change properties or write lines -/

theorem propertyAction (action : PropertyAction) :
    Relined lines (Visit.propertyAction action) (Visit.propertyAction action) := by
  refine bind store fun properties => bind (modifyStore _) fun _ => ?_
  split
  · exact pure _
  · exact fail _

theorem logger (level : LogLevel) {children others : List Step}
    (standFor : ∀ store, lines (loggerLine children store) (loggerLine others store)) :
    Relined lines (Visit.logger level children) (Visit.logger level others) :=
  bind store fun properties => bind (log level (.cons (standFor properties) .nil)) fun _ => pure _

/-! ### Scripts -/

theorem embed (name : String) {run other : Context → Program ScriptRun}
    (relined : ∀ context, (run context).Matches (ScriptRun.Relined lines) (other context)) :
    Relined lines (Visit.embed name run) (Visit.embed name other) := by
  refine bind context fun context => lift (relined context) ?_
  rintro ⟨result, ending, after⟩ ⟨otherResult, _, _⟩ ⟨sameResult, rfl, rfl⟩
  refine bind (modify fun frame otherFrame framesRelined =>
    ⟨rfl, framesRelined.log, framesRelined.entries⟩) fun _ => ?_
  cases ending with
  | crashed => exact abort _
  | interrupted => exact bind (record (.script sameResult)) fun _ => abort _
  | completed =>
      refine bind (record (.script sameResult)) fun _ => ?_
      dsimp only
      rw [sameResult.isFailed, sameResult.message]
      split
      · exact fail _
      · exact pure _

end Relined

theorem completeScript_relined {result other : ScriptResult} (relined : result.Relined lines other)
    (verdict : Verdict) (message : Option String) (ending : Ending) (context : Context) :
    (completeScript result verdict message ending context).Matches (ScriptRun.Relined lines)
      (completeScript other verdict message ending context) := by
  cases relined with
  | intro log_relined entries_relined =>
      exact .request fun stop => .pure ⟨.intro log_relined entries_relined, rfl, rfl⟩

theorem concludeScript_relined {result other : ScriptResult} (relined : result.Relined lines other)
    (outcome : Except Abort Flow) (context : Context) :
    (concludeScript result outcome context).Matches (ScriptRun.Relined lines)
      (concludeScript other outcome context) := by
  rcases outcome with (_ | _ | error) | flow
  · exact completeScript_relined relined _ _ _ context
  · exact .pure ⟨relined, rfl, rfl⟩
  · exact completeScript_relined relined _ _ _ context
  · exact completeScript_relined relined _ _ _ context

theorem runScript_relined (id name : String) {steps others : Visit Flow}
    (relined : steps.Relined lines others) (context : Context) :
    (runScript id name steps context).Matches (ScriptRun.Relined lines)
      (runScript id name others context) := by
  have visited := Relined.bind (.moveTo fun context => context.enterScript name) fun _ => relined
  refine .request fun start =>
    (visited ⟨context, [], []⟩ ⟨context, [], []⟩ ⟨rfl, .nil, .nil⟩).bind ?_
  rintro ⟨outcome, frame⟩ ⟨_, otherFrame⟩ ⟨rfl, framesRelined⟩
  dsimp only at framesRelined ⊢
  rw [framesRelined.context]
  exact concludeScript_relined (.intro framesRelined.log framesRelined.entries) _ _

end Visit

end TestEngine
