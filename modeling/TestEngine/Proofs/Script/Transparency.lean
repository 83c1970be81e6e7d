import TestEngine.Proofs.Script.Descent
import TestEngine.Proofs.Script.Indirection

/-!
# Runs that see through references

A script is run twice, in a context with a cell that refers to another one and in the same context
with the cell resolved. The runs ask the same and come to the same up to a step that takes the value
of the cell as it stands, and there is nothing to tell them apart if the value is the one that the
cell would take from the other one. `Program.Mirrors` goes along both runs at once; it lets a
backend be handed either context, and it says nothing of what comes behind a history that has led
to such a step.
-/

namespace TestEngine

variable {α β γ δ : Type}

/-! ### Two runs at once -/

namespace Indirection

variable (indirection : Indirection)

structure SettlesContext (context other : Context) : Prop where
  store : indirection.Settles context.properties other.properties
  rest : other = { context with properties := other.properties }

structure SettlesFrame (frame other : Frame) : Prop where
  context : indirection.SettlesContext frame.context other.context
  log : other.log = frame.log
  entries : other.entries = frame.entries

structure SettlesCall (call other : ActionCall) : Prop where
  context : indirection.SettlesContext call.context other.context
  rest : other = { call with context := other.context }

structure SettlesRun (ran other : ScriptRun) : Prop where
  result : other.result = ran.result
  ending : other.ending = ran.ending
  context : indirection.SettlesContext ran.context other.context

variable {indirection} in
theorem SettlesContext.enterStep {context other : Context}
    (settles : indirection.SettlesContext context other) (label : String) :
    indirection.SettlesContext (context.enterStep label) (other.enterStep label) := by
  refine ⟨settles.store, ?_⟩
  rw [settles.rest]
  rfl

variable {indirection} in
theorem SettlesContext.enterScript {context other : Context}
    (settles : indirection.SettlesContext context other) (name : String) :
    indirection.SettlesContext (context.enterScript name) (other.enterScript name) := by
  refine ⟨settles.store, ?_⟩
  rw [settles.rest]
  rfl

/-- A step takes the value of the cell as it stands, which is not the one that the cell takes from
the other. -/
structure TakenAt (step : Step) (frame : Frame) : Prop where
  holds : indirection.In frame.context.properties
  notCurrent : ¬indirection.IsCurrent
  takes : step.kind.TakesRaw indirection.name frame.context.properties

/-- The visit of a step has come to one that takes the value as it stands. -/
def TakenBy (setting : Setting) (step : Step) (frame : Frame)
    (history : List (Exchange Unit)) : Prop :=
  ∃ inner there, step.Comes setting frame history inner there ∧ indirection.TakenAt inner there

/-- The visits of steps one after the other have come to such a step. -/
def TakenAmong (setting : Setting) (steps : List Step) (frame : Frame)
    (history : List (Exchange Unit)) : Prop :=
  ∃ inner there, Step.ListComes setting steps frame history inner there ∧
    indirection.TakenAt inner there

/-- What a step does has come to such a step inside it. -/
def TakenInside (setting : Setting) (kind : StepKind) (frame : Frame)
    (history : List (Exchange Unit)) : Prop :=
  ∃ inner there, kind.Comes setting frame history inner there ∧ indirection.TakenAt inner there

end Indirection

/-- Programs that make the same requests, but for what backends are handed. Behind some histories
nothing is said of them. -/
inductive Program.Mirrors (calls : ActionCall → ActionCall → Prop) (same : α → β → Prop) :
    (stops : List (Exchange Unit) → Prop) → Program α → Program β → Prop
  | done {stops : List (Exchange Unit) → Prop} {value : α} {other : β}
      (sameValue : same value other) : Mirrors calls same stops (.done value) (.done other)
  | ask {stops : List (Exchange Unit) → Prop} {request : Request}
      {next : request.Answer → Program α} {otherNext : request.Answer → Program β}
      (goesOn : ∀ answer, Mirrors calls same (fun later => stops (⟨request, answer, ()⟩ :: later))
        (next answer) (otherNext answer)) :
      Mirrors calls same stops (.ask request next) (.ask request otherNext)
  | perform {stops : List (Exchange Unit) → Prop} {call other : ActionCall}
      {next : (Request.perform call).Answer → Program α}
      {otherNext : (Request.perform other).Answer → Program β} (sameCall : calls call other)
      (goesOn : ∀ answer, Mirrors calls same
        (fun later => stops (⟨.perform call, answer, ()⟩ :: later)) (next answer)
        (otherNext answer)) :
      Mirrors calls same stops (.ask (.perform call) next) (.ask (.perform other) otherNext)
  | apart {stops : List (Exchange Unit) → Prop} {program : Program α} {other : Program β}
      (stopsHere : stops []) : Mirrors calls same stops program other

namespace Program.Mirrors

variable {calls : ActionCall → ActionCall → Prop} {stops : List (Exchange Unit) → Prop}

theorem mono {same : α → β → Prop} {program : Program α} {other : Program β}
    (mirrors : program.Mirrors calls same stops other) {more : List (Exchange Unit) → Prop}
    (weaker : ∀ history, stops history → more history) :
    program.Mirrors calls same more other := by
  induction mirrors generalizing more with
  | done sameValue => exact .done sameValue
  | ask _ ih => exact .ask fun answer => ih answer fun later => weaker _
  | perform sameCall _ ih => exact .perform sameCall fun answer => ih answer fun later => weaker _
  | apart stopsHere => exact .apart (weaker [] stopsHere)

theorem request {same : α → β → Prop} {request : Request} {next : request.Answer → Program α}
    {otherNext : request.Answer → Program β}
    (goesOn : ∀ answer, (next answer).Mirrors calls same
      (fun later => stops (⟨request, answer, ()⟩ :: later)) (otherNext answer)) :
    (Program.request request >>= next).Mirrors calls same stops
      (Program.request request >>= otherNext) := .ask goesOn

/-- What comes behind a first half is looked at for each history that the first half can have. -/
theorem bind {relation : α → β → Prop} {same : γ → δ → Prop} {program : Program α}
    {other : Program β} {next : α → Program γ} {otherNext : β → Program δ}
    (first : program.Mirrors calls relation stops other)
    (goesOn : ∀ (history : List (Exchange Unit)) (value : α) (otherValue : β),
      program.Yields history value → relation value otherValue →
        (next value).Mirrors calls same (fun later => stops (history ++ later))
          (otherNext otherValue)) :
    (program >>= next).Mirrors calls same stops (other >>= otherNext) := by
  induction first with
  | done sameValue => exact goesOn [] _ _ .done sameValue
  | ask _ ih =>
      refine .ask fun answer => ih answer ?_
      intro history value otherValue yields
      exact goesOn (_ :: history) value otherValue (.ask yields)
  | perform sameCall _ ih =>
      refine .perform sameCall fun answer => ih answer ?_
      intro history value otherValue yields
      exact goesOn (_ :: history) value otherValue (.ask yields)
  | apart stopsHere => exact .apart stopsHere

end Program.Mirrors

/-- The comparison of programs of which something is said behind every history. -/
def Comparison.mirroring (calls : ActionCall → ActionCall → Prop) : Comparison where
  relates same := Program.Mirrors calls same fun _ => False
  done := .done
  ask goesOn := .ask goesOn
  bind first goesOn := first.bind fun _ value otherValue _ => goesOn value otherValue

/-! ### Visits -/

/-- Visits that differ in nothing but what they make of a cell that refers to another one. -/
abbrev Visit.Mirrors (indirection : Indirection) (visit other : Visit α) : Prop :=
  visit.Related (.mirroring indirection.SettlesCall) indirection.SettlesFrame other

/-- Visits that do so if they begin in given frames. -/
abbrev Visit.MirrorsFrom (indirection : Indirection) (visit other : Visit α)
    (frame otherFrame : Frame) : Prop :=
  visit.RelatedFrom (.mirroring indirection.SettlesCall) indirection.SettlesFrame other frame
    otherFrame

/-- A visit that does the same in two frames, but for what it makes of the cell. Behind some
histories nothing is said of it. -/
def Visit.MirrorsUntil (indirection : Indirection) (stops : List (Exchange Unit) → Prop)
    (visit : Visit α) (frame otherFrame : Frame) : Prop :=
  (visit.run.run frame).Mirrors indirection.SettlesCall
    (fun ended otherEnded => ended.1 = otherEnded.1 ∧
      indirection.SettlesFrame ended.2 otherEnded.2)
    stops (visit.run.run otherFrame)

namespace Visit.Mirrors

variable {indirection : Indirection} {setting : Setting}

theorem context {next otherNext : Context → Visit β}
    (rest : ∀ context other, indirection.SettlesContext context other →
      (next context).Mirrors indirection (otherNext other)) :
    (Visit.context >>= next).Mirrors indirection (Visit.context >>= otherNext) :=
  fun frame other settles => rest frame.context other.context settles.context frame other settles

theorem store {next otherNext : Store → Visit β}
    (rest : ∀ store other, indirection.Settles store other →
      (next store).Mirrors indirection (otherNext other)) :
    (Visit.store >>= next).Mirrors indirection (Visit.store >>= otherNext) :=
  fun frame other settles => rest _ _ settles.context.store frame other settles

theorem modifyStore {change otherChange : Store → Store}
    (keeps : ∀ store other, indirection.Settles store other →
      indirection.Settles (change store) (otherChange other)) :
    (Visit.modifyStore change).Mirrors indirection (Visit.modifyStore otherChange) := by
  apply Visit.Related.modify
  intro frame other settles
  refine ⟨⟨keeps _ _ settles.context.store, ?_⟩, settles.log, settles.entries⟩
  rw [settles.context.rest]

theorem put {property : Property} (ne : property.name ≠ indirection.name)
    (neTarget : property.name ≠ indirection.target) :
    (Visit.put property).Mirrors indirection (Visit.put property) :=
  modifyStore fun _ _ settles => settles.put ne neTarget

theorem record (entry : ScriptEntry) :
    (Visit.record entry).Mirrors indirection (Visit.record entry) := by
  apply Visit.Related.modify
  intro frame other settles
  exact ⟨settles.context, settles.log, congrArg (· ++ [entry]) settles.entries⟩

theorem log (level : LogLevel) (messages : List String) :
    (Visit.log level messages).Mirrors indirection (Visit.log level messages) := by
  apply Visit.Related.bind (.ask _)
  intro timestamp
  apply context
  intro caller other settles
  have sameUser : other.user = caller.user := by rw [settles.rest]
  rw [sameUser]
  apply Visit.Related.modify
  intro frame otherFrame framesSettle
  exact ⟨framesSettle.context, congrArg (· ++ _) framesSettle.log, framesSettle.entries⟩

theorem breakLoop {guards : List Guard}
    (sees : indirection.IsCurrent ∨ ¬∃ guard ∈ guards, guard.TakesRaw indirection.name) :
    (Visit.breakLoop guards).Mirrors indirection (Visit.breakLoop guards) := by
  apply store
  intro properties other settles
  have sameGuards : (guards.any fun guard => guard.holds other) =
      guards.any fun guard => guard.holds properties := by
    rw [Bool.eq_iff_iff, List.any_eq_true, List.any_eq_true]
    apply exists_congr
    intro guard
    apply and_congr_right
    intro guardMem
    rw [settles.guard_eq (sees.imp_right fun none takes => none ⟨guard, guardMem, takes⟩)]
  rw [sameGuards]
  exact .pure _

theorem bindIndex (iteration : Nat) {index : Option String}
    (ne : index ≠ some indirection.name) (neTarget : index ≠ some indirection.target) :
    (Visit.bindIndex iteration index).Mirrors indirection
      (Visit.bindIndex iteration index) := by
  cases index with
  | none => exact .pure _
  | some index =>
      apply put
      · exact fun isCell => ne (congrArg some isCell)
      · exact fun isTarget => neTarget (congrArg some isTarget)

/-! ### Steps that call capabilities -/

theorem enterResponse {action : Action} (outside : ¬Store.Scoped action.name indirection.name)
    (targetOutside : ¬Store.Scoped action.name indirection.target) (response : ActionResponse) :
    (Visit.enterResponse action response).Mirrors indirection
      (Visit.enterResponse action response) := by
  rw [Visit.enterResponse]
  split
  · exact .bind (record _) fun _ => .fail _
  · apply Visit.Related.bind
    · exact modifyStore fun _ _ settles => settles.mergeScoped outside targetOutside _
    · exact fun _ => .bind (record _) fun _ => .pure _

theorem perform {call other : ActionCall} (sameCall : indirection.SettlesCall call other)
    {next otherNext : Reply (Except EngineError ActionResponse) → Visit β}
    (rest : ∀ reply, (next reply).Mirrors indirection (otherNext reply)) :
    (Visit.ask (.perform call) >>= next).Mirrors indirection
      (Visit.ask (.perform other) >>= otherNext) :=
  fun frame otherFrame settles =>
    Program.Mirrors.perform sameCall fun reply => rest reply frame otherFrame settles

theorem action {action : Action}
    (sees : indirection.IsCurrent ∨
      ¬∃ property ∈ action.properties, property.reference = some indirection.name)
    (outside : ¬Store.Scoped action.name indirection.name)
    (targetOutside : ¬Store.Scoped action.name indirection.target) :
    (Visit.action setting action).Mirrors indirection
      (Visit.action setting action) := by
  apply Visit.Related.bind (.ofExcept _)
  rintro ⟨target, operation⟩
  apply store
  intro properties other settles
  rw [settles.resolveAll_eq sees]
  apply Visit.Related.bind (.ofExcept _)
  intro arguments
  apply context
  intro caller otherCaller contextsSettle
  have sameTracing : otherCaller.tracing = caller.tracing := by rw [contextsSettle.rest]
  rw [sameTracing]
  apply perform ⟨contextsSettle, rfl⟩
  intro reply
  apply Visit.Related.bind (.takeReply reply)
  intro response
  exact .bind (.waitAfter _) fun _ => enterResponse outside targetOutside _

theorem function {function : Function}
    (sees : indirection.IsCurrent ∨
      ¬∃ property ∈ function.properties, property.reference = some indirection.name)
    (outside : ¬Store.Scoped function.name indirection.name)
    (targetOutside : ¬Store.Scoped function.name indirection.target) :
    (Visit.function setting function).Mirrors indirection
      (Visit.function setting function) := by
  rw [Visit.function]
  split
  · apply store
    intro properties other settles
    rw [settles.resolveAll_eq sees]
    apply Visit.Related.bind (.ofExcept _)
    intro arguments
    apply Visit.Related.bind (.ask _)
    rintro ⟨lines, reply⟩
    apply Visit.Related.bind (.takeFunctionReply (log _ _) reply)
    intro returned
    apply Visit.Related.bind
    · exact modifyStore fun _ _ settles => settles.mergeScoped outside targetOutside returned
    · exact fun _ => .pure _
  · exact .fail _

/-- A check is handed the same whether the cell was resolved before or not. -/
theorem verify (message check : String) {name : String} {frame otherFrame : Frame}
    (settles : indirection.SettlesFrame frame otherFrame)
    (checked :
      (otherFrame.context.properties.get? name).mapM otherFrame.context.properties.resolve =
        (frame.context.properties.get? name).mapM frame.context.properties.resolve) :
    (Visit.verify setting message check name).MirrorsFrom indirection
      (Visit.verify setting message check name) frame otherFrame := by
  rw [Visit.verify]
  split
  · let verifies (argument : Except EngineError (Option Property)) : Visit Flow :=
      Visit.ofExcept argument >>= fun property =>
        Visit.ask (.verify check property) >>= Visit.takeVerification message
    have mirrors {argument otherArgument : Except EngineError (Option Property)}
        (same : otherArgument = argument) :
        (verifies argument).Mirrors indirection (verifies otherArgument) := by
      rw [same]
      exact .bind (.ofExcept argument) fun property => .bind (.ask _) fun answer =>
        .takeVerification message answer
    exact mirrors checked frame otherFrame settles
  · exact Visit.Related.fail _ frame otherFrame settles

theorem assertion {assertion : Assertion} {frame otherFrame : Frame}
    (settles : indirection.SettlesFrame frame otherFrame)
    (sees : indirection.IsCurrent ∨ ¬StepKind.TakesRaw indirection.name frame.context.properties
      (.assertion assertion)) :
    (Visit.assertion setting assertion).MirrorsFrom indirection
      (Visit.assertion setting assertion) frame otherFrame := by
  rw [Visit.assertion]
  split
  · exact Visit.Related.fail _ frame otherFrame settles
  · split
    · rename_i check name hasCheck hasName
      apply verify _ _ settles
      apply settles.context.store.checked_eq
      apply sees.imp_right
      intro resolved property found refers
      exact resolved ⟨name, property, hasName, found, refers⟩
    · exact Visit.Related.pure _ frame otherFrame settles

/-! ### Steps that change properties or write lines -/

theorem propertyAction {action : PropertyAction} (ne : action.target ≠ indirection.name)
    (neTarget : action.target ≠ indirection.target)
    (notCopied : ¬(action.verb = .copy ∧ action.source = some indirection.name)) :
    (Visit.propertyAction action).Mirrors indirection
      (Visit.propertyAction action) := by
  apply store
  intro properties other settles
  rcases settles.apply ne neTarget notCopied with ⟨stillSettles, sameError⟩
  dsimp only
  rw [sameError]
  apply Visit.Related.bind
  · exact modifyStore fun _ _ _ => stillSettles
  · intro _
    split
    · exact .pure _
    · exact .fail _

theorem logger (level : LogLevel) {children : List Step}
    (sees : indirection.IsCurrent ∨
      ¬∃ message ∈ Step.texts children, message.property = some indirection.name) :
    (Visit.logger level children).Mirrors indirection
      (Visit.logger level children) := by
  apply store
  intro properties other settles
  rw [settles.loggerLine_eq sees]
  exact .bind (log _ _) fun _ => .pure _

theorem textMessage {message : TextMessage}
    (sees : indirection.IsCurrent ∨ message.property ≠ some indirection.name) :
    (Visit.textMessage message).Mirrors indirection
      (Visit.textMessage message) := by
  apply store
  intro properties other settles
  rw [settles.render_eq sees]
  exact .bind (log _ _) fun _ => .pure _

end Visit.Mirrors

/-! ### Visits that hold visits -/

namespace Visit.MirrorsUntil

variable {indirection : Indirection} {setting : Setting} {stops : List (Exchange Unit) → Prop}
  {frame otherFrame : Frame}

theorem mono {visit : Visit α} (mirrors : visit.MirrorsUntil indirection stops frame otherFrame)
    {more : List (Exchange Unit) → Prop} (weaker : ∀ history, stops history → more history) :
    visit.MirrorsUntil indirection more frame otherFrame :=
  Program.Mirrors.mono mirrors weaker

/-- Where something is said behind every history it is said behind all that do not count. -/
theorem of_mirrors {visit : Visit α} (mirrors : visit.Mirrors indirection visit)
    (settles : indirection.SettlesFrame frame otherFrame) :
    visit.MirrorsUntil indirection stops frame otherFrame :=
  Program.Mirrors.mono (mirrors frame otherFrame settles) fun _ => False.elim

theorem bind {visit : Visit α} {next : α → Visit β}
    (first : visit.MirrorsUntil indirection stops frame otherFrame)
    (rest : ∀ (history : List (Exchange Unit)) (value : α) (reached otherReached : Frame),
      visit.Yields frame history (.ok value) reached →
        indirection.SettlesFrame reached otherReached →
          (next value).MirrorsUntil indirection (fun later => stops (history ++ later)) reached
            otherReached) :
    (visit >>= next).MirrorsUntil indirection stops frame otherFrame := by
  change Program.Mirrors _ _ _ (visit.run.run frame >>= fun ended => _)
    (visit.run.run otherFrame >>= fun ended => _)
  refine Program.Mirrors.bind first ?_
  rintro history ⟨outcome, reached⟩ ⟨_, otherReached⟩ yields ⟨rfl, settles⟩
  cases outcome with
  | ok value => exact rest history value reached otherReached yields settles
  | error reason => exact .done ⟨rfl, settles⟩

theorem attempt_bind {visit : Visit α} {next : Except Abort α → Visit β}
    (first : visit.MirrorsUntil indirection stops frame otherFrame)
    (rest : ∀ outcome, (next outcome).Mirrors indirection (next outcome)) :
    (Visit.attempt visit >>= next).MirrorsUntil indirection stops frame otherFrame := by
  rw [MirrorsUntil, Visit.run_attempt, Visit.run_attempt]
  refine Program.Mirrors.bind first ?_
  rintro history ⟨outcome, reached⟩ ⟨_, otherReached⟩ - ⟨rfl, settles⟩
  exact of_mirrors (rest outcome) settles

section Bodies

variable {body : Visit Flow} {bodyStops : Frame → List (Exchange Unit) → Prop}

theorem condition {guard : Guard}
    (sees : indirection.IsCurrent ∨ ¬guard.TakesRaw indirection.name)
    (settles : indirection.SettlesFrame frame otherFrame)
    (mirrors : guard.holds frame.context.properties →
      body.MirrorsUntil indirection stops frame otherFrame) :
    (Visit.condition guard body).MirrorsUntil indirection stops frame otherFrame := by
  change Program.Mirrors _ _ _
    ((if guard.holds frame.context.properties then body else pure .next : Visit Flow).run.run frame)
    ((if guard.holds otherFrame.context.properties then body else pure .next : Visit Flow).run.run
      otherFrame)
  rw [settles.context.store.guard_eq sees]
  split
  · rename_i holds
    exact mirrors holds
  · exact .done ⟨rfl, settles⟩

variable (mirrors : ∀ frame otherFrame, indirection.SettlesFrame frame otherFrame →
  body.MirrorsUntil indirection (bodyStops frame) frame otherFrame)

include mirrors

theorem iterate {bounds : LoopBounds} {deadline : Option Nat}
    (ne : bounds.index ≠ some indirection.name) (neTarget : bounds.index ≠ some indirection.target)
    {remaining place : Nat} (settles : indirection.SettlesFrame frame otherFrame)
    (opens : ∀ opening within later,
      Visit.Iterates bounds deadline body remaining place frame opening within →
        bodyStops within later → stops (opening ++ later)) :
    (Visit.iterate bounds deadline body remaining place).MirrorsUntil indirection stops frame
      otherFrame := by
  induction remaining generalizing place frame otherFrame stops with
  | zero => exact of_mirrors (.pure _) settles
  | succ remaining ih =>
      refine bind (of_mirrors (.waitBefore _ _) settles) ?_
      intro wait _ reached _ waited waitedSettle
      rcases Visit.yields_waitBefore waited with ⟨rfl, goesOn, waits, isOk⟩
      obtain rfl : goesOn = true := by
        cases goesOn with
        | true => rfl
        | false => exact nomatch isOk
      refine bind (of_mirrors (.isOver _) waitedSettle) ?_
      intro look timeUp reached _ looked lookedSettle
      rcases Visit.yields_isOver looked with ⟨rfl, _, looks, isOk⟩
      cases isOk
      cases timeUp with
      | true => exact of_mirrors (.pure _) lookedSettle
      | false =>
          refine bind (of_mirrors (.bindIndex _ ne neTarget) lookedSettle) ?_
          intro nothing _ start _ binds startsSettle
          rcases Visit.yields_bindIndex binds with ⟨rfl, -, rfl⟩
          refine bind ((mirrors _ _ startsSettle).mono fun later stops => ?_) ?_
          · simpa using opens _ _ later (.here waits looks) stops
          · intro visited flow middle _ visits middlesSettle
            cases flow with
            | leave => exact of_mirrors (.pure _) middlesSettle
            | next =>
                refine ih middlesSettle fun opening within later iterates stops => ?_
                simpa using opens _ within later (.next waits looks visits iterates) stops

theorem loop {bounds : LoopBounds} (ne : bounds.index ≠ some indirection.name)
    (neTarget : bounds.index ≠ some indirection.target)
    (settles : indirection.SettlesFrame frame otherFrame)
    (opens : ∀ timing deadline opening within later, Times bounds.maxDuration timing deadline →
      Visit.Iterates bounds deadline body bounds.limit 0 frame opening within →
        bodyStops within later → stops (timing ++ (opening ++ later))) :
    (Visit.loop bounds body).MirrorsUntil indirection stops frame otherFrame := by
  refine bind (of_mirrors (.setDeadline _) settles) ?_
  intro timing deadline reached _ timed stillSettles
  rcases Visit.yields_setDeadline timed with ⟨rfl, _, times, isOk⟩
  cases isOk
  exact iterate mirrors ne neTarget stillSettles fun opening within later =>
    opens timing deadline opening within later times

theorem eachItem {element : String} (ne : element ≠ indirection.name)
    (neTarget : element ≠ indirection.target) {items : List Property}
    (settles : indirection.SettlesFrame frame otherFrame)
    (opens : ∀ opening within later,
      Visit.GoesThrough element body items frame opening within →
        bodyStops within later → stops (opening ++ later)) :
    (Visit.eachItem element body items).MirrorsUntil indirection stops frame otherFrame := by
  induction items generalizing frame otherFrame stops with
  | nil => exact of_mirrors (.pure _) settles
  | cons item rest ih =>
      refine bind (of_mirrors (.put ne neTarget) settles) ?_
      intro nothing _ start _ puts startsSettle
      rcases Visit.yields_modify.mp puts with ⟨rfl, -, rfl⟩
      refine bind ((mirrors _ _ startsSettle).mono fun later stops => ?_) ?_
      · exact opens [] _ later .here stops
      · intro visited flow middle _ visits middlesSettle
        cases flow with
        | leave => exact of_mirrors (.pure _) middlesSettle
        | next =>
            refine ih middlesSettle fun opening within later goesThrough stops => ?_
            simpa using opens _ within later (.next visits goesThrough) stops

omit mirrors in
/-- The names that count are taken, so nothing is gone through under one of them. -/
theorem foreach {list element : String} (sees : indirection.IsCurrent ∨ list ≠ indirection.name)
    (mirrors : element ≠ indirection.name → element ≠ indirection.target →
      ∀ frame otherFrame, indirection.SettlesFrame frame otherFrame →
        body.MirrorsUntil indirection (bodyStops frame) frame otherFrame)
    (settles : indirection.SettlesFrame frame otherFrame)
    (opens : ∀ items opening within later,
      Visit.foreachItems frame.context.properties list element = .ok items →
        Visit.GoesThrough element body items frame opening within →
          bodyStops within later → stops (opening ++ later)) :
    (Visit.foreach list element body).MirrorsUntil indirection stops frame otherFrame := by
  let visit (items : Except EngineError (List Property)) : Visit Flow := do
    let items ← Visit.ofExcept items
    let outcome ← Visit.attempt (Visit.eachItem element body items)
    Visit.modifyStore (Visit.unbind element outcome)
    Visit.conclude outcome
  change Program.Mirrors _ _ _
    ((visit (Visit.foreachItems frame.context.properties list element)).run.run frame)
    ((visit (Visit.foreachItems otherFrame.context.properties list element)).run.run otherFrame)
  rw [settles.context.store.foreachItems_eq sees]
  cases found : Visit.foreachItems frame.context.properties list element with
  | error problem => exact .done ⟨rfl, settles⟩
  | ok items =>
      have free := Visit.get?_of_foreachItems found
      rcases settles.context.store.holds.ne_of_get?_eq_none free with ⟨ne, neTarget⟩
      refine attempt_bind (eachItem (mirrors ne neTarget) ne neTarget settles ?_) ?_
      · exact fun opening within later => opens items opening within later found
      · intro outcome
        apply Visit.Related.bind
        · exact Mirrors.modifyStore fun _ _ settles => settles.unbind outcome ne neTarget
        · exact fun _ => .conclude outcome

omit mirrors in
theorem lock {name : String} {timeout : Nat} (settles : indirection.SettlesFrame frame otherFrame)
    (mirrors : body.MirrorsUntil indirection
      (fun later => stops (⟨.acquire name timeout, LockAnswer.granted, ()⟩ :: later)) frame
        otherFrame) :
    (Visit.lock name timeout body).MirrorsUntil indirection stops frame otherFrame := by
  refine .ask fun answer => ?_
  cases answer with
  | granted => exact attempt_bind mirrors fun outcome => .bind (.ask _) fun _ => .conclude outcome
  | timedOut => exact of_mirrors (.fail _) settles
  | cancelled => exact of_mirrors (.bind .checkpoint fun _ => .abort _) settles

end Bodies

/-- What is asked to enter a step is the same, wherever the store differs. -/
theorem enter {step : Step} (settles : indirection.SettlesFrame frame otherFrame)
    (rest : ∀ entry, frame.Enters step entry →
      indirection.SettlesFrame (frame.entering step) (otherFrame.entering step) →
        (step.kind.visit setting).MirrorsUntil indirection (fun later => stops (entry ++ later))
          (frame.entering step) (otherFrame.entering step)) :
    (step.visit setting).MirrorsUntil indirection stops frame otherFrame := by
  rcases step with ⟨id, order, kind⟩
  have entered := settles.context.enterStep (Step.label ⟨id, order, kind⟩)
  have sameCursor : (otherFrame.entering ⟨id, order, kind⟩).context.cursor =
      (frame.entering ⟨id, order, kind⟩).context.cursor := by
    change (otherFrame.context.enterStep _).cursor = _
    rw [entered.rest]
    rfl
  refine .ask fun goesOn => ?_
  cases goesOn with
  | false => exact .done ⟨rfl, settles⟩
  | true =>
      change Program.Mirrors _ _ _
        (.ask (.moveTo (frame.entering ⟨id, order, kind⟩).context.cursor) _)
        (.ask (.moveTo (otherFrame.entering ⟨id, order, kind⟩).context.cursor) _)
      rw [sameCursor]
      exact .ask fun _ => rest _ (.intro () ()) ⟨entered, settles.log, settles.entries⟩

theorem sequence {steps : List Step}
    (mirrors : ∀ step ∈ steps, ∀ frame otherFrame, indirection.SettlesFrame frame otherFrame →
      (step.visit setting).MirrorsUntil indirection (indirection.TakenBy setting step frame) frame
        otherFrame)
    (settles : indirection.SettlesFrame frame otherFrame) :
    (Visit.sequence (steps.map (Step.visit setting))).MirrorsUntil indirection
      (indirection.TakenAmong setting steps frame) frame otherFrame := by
  induction steps generalizing frame otherFrame with
  | nil => exact of_mirrors (.pure _) settles
  | cons step rest ih =>
      rw [List.forall_mem_cons] at mirrors
      rw [List.map_cons, Visit.sequence]
      refine bind ((mirrors.1 _ _ settles).mono ?_) ?_
      · rintro history ⟨inner, there, comes, taken⟩
        exact ⟨inner, there, .first comes, taken⟩
      · intro visited flow middle _ visits middlesSettle
        cases flow with
        | leave => exact of_mirrors (.pure _) middlesSettle
        | next =>
            refine (ih mirrors.2 middlesSettle).mono ?_
            rintro later ⟨inner, there, comes, taken⟩
            exact ⟨inner, there, .later visits comes, taken⟩

/-- Siblings come to a step in the order in which they are visited. -/
theorem siblings {steps : List Step}
    (mirrors : ∀ step ∈ steps, ∀ frame otherFrame, indirection.SettlesFrame frame otherFrame →
      (step.visit setting).MirrorsUntil indirection (indirection.TakenBy setting step frame) frame
        otherFrame)
    (frame otherFrame : Frame) (settles : indirection.SettlesFrame frame otherFrame) :
    (Visit.siblings (Step.visits setting steps)).MirrorsUntil indirection
      (indirection.TakenAmong setting (inOrder Step.order steps) frame) frame otherFrame := by
  rw [Visit.siblings, Step.visits_eq_map, inOrder_map, List.map_map]
  refine sequence (fun step stepMem => mirrors step ?_) settles
  exact (inOrder_perm Step.order steps).mem_iff.mp stepMem

/-! ### Scripts -/

/-- A run in the place of a step, and what is made of it there. -/
theorem lift_bind {run : Context → Program ScriptRun} {enter : ScriptRun → Visit Flow}
    (settles : indirection.SettlesFrame frame otherFrame)
    (mirrors : (run frame.context).Mirrors indirection.SettlesCall indirection.SettlesRun stops
      (run otherFrame.context))
    (enters : ∀ ran otherRan, indirection.SettlesRun ran otherRan →
      (enter ran).Mirrors indirection (enter otherRan)) :
    (Visit.context >>= fun context =>
      ExceptT.lift (StateT.lift (run context)) >>= enter : Visit Flow).MirrorsUntil indirection
        stops frame otherFrame := by
  change Program.Mirrors _ _ _
    ((ExceptT.lift (StateT.lift (run frame.context)) >>= enter : Visit Flow).run.run frame)
    ((ExceptT.lift (StateT.lift (run otherFrame.context)) >>= enter : Visit Flow).run.run
      otherFrame)
  rw [Visit.run_lift, Visit.run_lift]
  refine Program.Mirrors.bind mirrors ?_
  intro history ran otherRan _ same
  exact Program.Mirrors.mono (enters ran otherRan same frame otherFrame settles) fun _ => False.elim

theorem embed (name : String) {run : Context → Program ScriptRun}
    (settles : indirection.SettlesFrame frame otherFrame)
    (mirrors : (run frame.context).Mirrors indirection.SettlesCall indirection.SettlesRun stops
      (run otherFrame.context)) :
    (Visit.embed name run).MirrorsUntil indirection stops frame otherFrame := by
  refine lift_bind settles mirrors fun ran otherRan same => ?_
  rw [same.result, same.ending]
  apply Visit.Related.bind
  · apply Visit.Related.modify
    intro frame otherFrame framesSettle
    exact ⟨same.context, framesSettle.log, framesSettle.entries⟩
  · intro _
    cases ran.ending with
    | crashed => exact .abort _
    | interrupted => exact .bind (Mirrors.record _) fun _ => .abort _
    | completed =>
        apply Visit.Related.bind (Mirrors.record _)
        intro _
        split
        · exact .fail _
        · exact .pure _

theorem runScript {script : Script} {context other : Context}
    (mirrors : ∀ start, (Visit.siblings (Step.visits setting script.steps)).MirrorsUntil indirection
      (fun later => stops (⟨.now, start, ()⟩ ::
        ⟨.moveTo (script.opening context).context.cursor, (), ()⟩ :: later))
      (script.opening context) (script.opening other)) :
    (script.run setting context).Mirrors indirection.SettlesCall indirection.SettlesRun stops
      (script.run setting other) := by
  rcases script with ⟨id, name, order, steps⟩
  have completes {result : ScriptResult} {verdict : Verdict} {message : Option String}
      {ending : Ending} {stops : List (Exchange Unit) → Prop} {left otherLeft : Context}
      (settles : indirection.SettlesContext left otherLeft) :
      (Visit.completeScript result verdict message ending left).Mirrors indirection.SettlesCall
        indirection.SettlesRun stops
        (Visit.completeScript result verdict message ending otherLeft) :=
    .ask fun _ => .done ⟨rfl, rfl, settles⟩
  have begins (start : Request.now.Answer) : (Visit.moveTo (fun context =>
      context.enterScript name) >>= fun _ => Visit.siblings (Step.visits setting
        steps)).MirrorsUntil indirection (fun later => stops (⟨.now, start, ()⟩ :: later))
          ⟨context, [], []⟩ ⟨other, [], []⟩ := Program.Mirrors.ask fun _ => mirrors start
  rw [Script.run]
  refine .request fun start => Program.Mirrors.bind (begins start) ?_
  rintro history ⟨outcome, frame⟩ ⟨_, otherFrame⟩ - ⟨rfl, framesSettle⟩
  dsimp only at framesSettle ⊢
  rw [framesSettle.log, framesSettle.entries]
  rcases outcome with (_ | _ | error) | flow
  · exact completes framesSettle.context
  · exact .done ⟨rfl, rfl, framesSettle.context⟩
  · exact completes framesSettle.context
  · exact completes framesSettle.context

end Visit.MirrorsUntil

/-! ### The induction over the syntax -/

section Syntax

variable {indirection : Indirection} (setting : Setting)

/-- Whether a step, and all that is inside it, leaves the cell uncopied. -/
def Step.NeverCopies (indirection : Indirection) (step : Step) : Prop :=
  ∀ inner, step.Holds inner → ¬inner.kind.CopiesFrom indirection.name

mutual

theorem Step.visit_mirrors : (step : Step) → ¬step.Writes indirection.name →
    ¬step.Writes indirection.target → step.NeverCopies indirection →
      ∀ frame otherFrame, indirection.SettlesFrame frame otherFrame →
        (step.visit setting).MirrorsUntil indirection (indirection.TakenBy setting step frame)
          frame otherFrame
  | ⟨id, order, kind⟩, unwritten, targetUnwritten, uncopied, frame, otherFrame, settles => by
      refine Visit.MirrorsUntil.enter settles fun entry enters entered => ?_
      by_cases taken : indirection.TakenAt ⟨id, order, kind⟩ (frame.entering ⟨id, order, kind⟩)
      · refine .apart ⟨_, _, ?_, taken⟩
        rw [List.append_nil]
        exact .itself enters
      · have sees : indirection.IsCurrent ∨ ¬kind.TakesRaw indirection.name
            (frame.entering ⟨id, order, kind⟩).context.properties := by
          by_contra taking
          rw [not_or, not_not] at taking
          exact taken ⟨entered.context.store.holds, taking.1, taking.2⟩
        have inside : ∀ child ∈ kind.inside, child.NeverCopies indirection :=
          fun child childMem inner holds => uncopied inner (.deeper childMem holds)
        refine (kind.visit_mirrors unwritten targetUnwritten (uncopied _ .itself) inside entered
          sees).mono ?_
        rintro later ⟨inner, there, comes, taken⟩
        exact ⟨inner, there, comes.behind enters, taken⟩

theorem StepKind.visit_mirrors : (kind : StepKind) → ¬kind.Writes indirection.name →
    ¬kind.Writes indirection.target → ¬kind.CopiesFrom indirection.name →
      (∀ child ∈ kind.inside, child.NeverCopies indirection) →
        ∀ {frame otherFrame : Frame}, indirection.SettlesFrame frame otherFrame →
          indirection.IsCurrent ∨ ¬kind.TakesRaw indirection.name frame.context.properties →
            (kind.visit setting).MirrorsUntil indirection
              (indirection.TakenInside setting kind frame) frame otherFrame
  | .logger level children, _, _, _, _, _, _, settles, sees => by
      rw [StepKind.visit]
      exact .of_mirrors (.logger level sees) settles
  | .textMessage message, _, _, _, _, _, _, settles, sees => by
      rw [StepKind.visit]
      exact .of_mirrors (.textMessage sees) settles
  | .condition ⟨guard, children⟩, unwritten, targetUnwritten, _, uncopied, frame, _, settles,
    sees => by
      rw [StepKind.visit]
      refine .condition sees settles fun holds => ?_
      have mirrors := Step.visits_mirror children unwritten targetUnwritten uncopied
      refine (Visit.MirrorsUntil.siblings mirrors _ _ settles).mono ?_
      rintro later ⟨inner, there, comes, taken⟩
      exact ⟨inner, there, .intro (.condition holds) comes, taken⟩
  | .execution children, unwritten, targetUnwritten, _, uncopied, _, _, settles, _ => by
      rw [StepKind.visit]
      have mirrors := Step.visits_mirror children unwritten targetUnwritten uncopied
      refine (Visit.MirrorsUntil.siblings mirrors _ _ settles).mono ?_
      rintro later ⟨inner, there, comes, taken⟩
      exact ⟨inner, there, .intro .execution comes, taken⟩
  | .action action, outside, targetOutside, _, _, _, _, settles, sees => by
      rw [StepKind.visit]
      exact .of_mirrors (.action sees outside targetOutside) settles
  | .assertion assertion, _, _, _, _, _, _, settles, sees => by
      rw [StepKind.visit]
      exact Program.Mirrors.mono (Visit.Mirrors.assertion settles sees) fun _ => False.elim
  | .loop bounds children, unwritten, targetUnwritten, _, uncopied, frame, _, settles, _ => by
      rw [StepKind.Writes, not_or] at unwritten targetUnwritten
      rw [StepKind.visit]
      have mirrors := Step.visits_mirror children unwritten.2 targetUnwritten.2 uncopied
      refine .loop (Visit.MirrorsUntil.siblings mirrors) unwritten.1 targetUnwritten.1 settles ?_
      rintro timing deadline opening within later times iterates ⟨inner, there, comes, taken⟩
      rw [← List.append_assoc]
      exact ⟨inner, there, .intro (.loop times iterates) comes, taken⟩
  | .foreach list element children, unwritten, targetUnwritten, _, uncopied, frame, _, settles,
    sees => by
      rw [StepKind.Writes, not_and] at unwritten targetUnwritten
      rw [StepKind.visit]
      have mirrors (ne : element ≠ indirection.name) (neTarget : element ≠ indirection.target) :=
        Step.visits_mirror children (unwritten ne) (targetUnwritten neTarget) uncopied
      refine .foreach sees (fun ne neTarget => .siblings (mirrors ne neTarget)) settles ?_
      rintro items opening within later hasItems goesThrough ⟨inner, there, comes, taken⟩
      exact ⟨inner, there, .intro (.foreach hasItems goesThrough) comes, taken⟩
  | .breakLoop conditions, _, _, _, _, _, _, settles, sees => by
      rw [StepKind.visit]
      exact .of_mirrors (.breakLoop sees) settles
  | .lock lock timeout children, unwritten, targetUnwritten, _, uncopied, _, _, settles, _ => by
      rw [StepKind.visit]
      refine .lock settles ?_
      have mirrors := Step.visits_mirror children unwritten targetUnwritten uncopied
      refine (Visit.MirrorsUntil.siblings mirrors _ _ settles).mono ?_
      rintro later ⟨inner, there, comes, taken⟩
      exact ⟨inner, there, .intro (.lock ()) comes, taken⟩
  | .propertyAction action, ne, neTarget, notCopied, _, _, _, settles, _ => by
      rw [StepKind.visit]
      exact .of_mirrors (.propertyAction ne neTarget notCopied) settles
  | .script script, unwritten, targetUnwritten, _, uncopied, frame, _, settles, _ => by
      rw [StepKind.visit]
      exact .embed script.name settles
        (script.run_mirrors unwritten targetUnwritten uncopied frame settles.context)
  | .function function, outside, targetOutside, _, _, _, _, settles, sees => by
      rw [StepKind.visit]
      exact .of_mirrors (.function sees outside targetOutside) settles

theorem Step.visits_mirror : (children : List Step) → ¬Step.AnyWrites indirection.name children →
    ¬Step.AnyWrites indirection.target children →
      (∀ child ∈ children, child.NeverCopies indirection) →
        ∀ child ∈ children, ∀ frame otherFrame, indirection.SettlesFrame frame otherFrame →
          (child.visit setting).MirrorsUntil indirection
            (indirection.TakenBy setting child frame) frame otherFrame
  | [], _, _, _ => by simp
  | step :: rest, unwritten, targetUnwritten, uncopied => by
      rw [Step.AnyWrites, not_or] at unwritten targetUnwritten
      rw [List.forall_mem_cons] at uncopied ⊢
      exact ⟨step.visit_mirrors unwritten.1 targetUnwritten.1 uncopied.1,
        Step.visits_mirror rest unwritten.2 targetUnwritten.2 uncopied.2⟩

theorem Script.run_mirrors : (script : Script) → ¬script.Writes indirection.name →
    ¬script.Writes indirection.target →
      (∀ step ∈ script.steps, step.NeverCopies indirection) →
        ∀ (frame : Frame) {other : Context}, indirection.SettlesContext frame.context other →
          (script.run setting frame.context).Mirrors indirection.SettlesCall indirection.SettlesRun
            (indirection.TakenInside setting (.script script) frame) (script.run setting other)
  | ⟨id, title, order, children⟩, unwritten, targetUnwritten, uncopied, frame, other, settles => by
      have mirrors := Step.visits_mirror children unwritten targetUnwritten uncopied
      have entered : indirection.SettlesFrame
          (Script.opening ⟨id, title, order, children⟩ frame.context)
          (Script.opening ⟨id, title, order, children⟩ other) :=
        ⟨settles.enterScript title, rfl, rfl⟩
      refine Visit.MirrorsUntil.runScript fun start => ?_
      refine (Visit.MirrorsUntil.siblings mirrors _ _ entered).mono ?_
      rintro later ⟨inner, there, comes, taken⟩
      exact ⟨inner, there, .intro (.script start () ()) comes, taken⟩

end

end Syntax

end TestEngine
