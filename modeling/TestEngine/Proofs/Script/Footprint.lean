import TestEngine.Proofs.Value
import TestEngine.Proofs.Walk.Record

/-!
# Footprints of scripts

Which properties a run of a script may change can be read off its text. A property action may
change its target and a loop its index; a call of a backend or of a function may change the names
that begin with its own. A foreach binds a name for its items only while it runs. Every other name
reads the same before and after the run, whatever the capabilities return and however the run ends,
unless it crashes: a foreach that crashes leaves the name for its items bound.
-/

namespace TestEngine

variable {α β : Type}

/-! ### Names that a text writes -/

/-- The names that properties entered under a scope can get. -/
def Store.Scoped (scope name : String) : Prop := scope = "" ∨ ∃ own, name = scope ++ "." ++ own

section Writes

variable (name : String)

mutual

/-- Whether a visit of a step may leave something else under a name. -/
def Step.Writes : Step → Prop
  | ⟨_, _, kind⟩ => kind.Writes

def StepKind.Writes : StepKind → Prop
  | .propertyAction action => action.target = name
  | .action action => Store.Scoped action.name name
  | .function function => Store.Scoped function.name name
  | .loop bounds children => bounds.index = some name ∨ Step.AnyWrites children
  | .foreach _ element children => element ≠ name ∧ Step.AnyWrites children
  | .condition ⟨_, children⟩ => Step.AnyWrites children
  | .execution children => Step.AnyWrites children
  | .lock _ _ children => Step.AnyWrites children
  | .script script => script.Writes
  | .logger .. => False
  | .textMessage _ => False
  | .assertion _ => False
  | .breakLoop _ => False

def Step.AnyWrites : List Step → Prop
  | [] => False
  | step :: rest => step.Writes ∨ Step.AnyWrites rest

def Script.Writes : Script → Prop
  | ⟨_, _, _, steps⟩ => Step.AnyWrites steps

end

end Writes

/-! ### Stores -/

section Stores

variable {name : String}

theorem Store.get?_put_of_ne (store : Store) {property : Property} (ne : property.name ≠ name) :
    (store.put property).get? name = store.get? name := by
  rw [Store.put, NameMap.get?_insert]
  exact if_neg (Ne.symm ne)

theorem Store.get?_merge_of_forall_ne (store : Store) (properties : List Property)
    (apart : ∀ property ∈ properties, property.name ≠ name) :
    (store.merge properties).get? name = store.get? name := by
  induction properties generalizing store with
  | nil => rfl
  | cons first rest ih =>
      have restApart : ∀ property ∈ rest, property.name ≠ name :=
        fun property propertyMem => apart property (List.mem_cons_of_mem _ propertyMem)
      calc (store.merge (first :: rest)).get? name
          = ((store.put first).merge rest).get? name := rfl
        _ = (store.put first).get? name := ih _ restApart
        _ = store.get? name := Store.get?_put_of_ne _ (apart first List.mem_cons_self)

theorem Store.scoped_qualify (scope own : String) :
    Store.Scoped scope (Store.qualify scope own) := by
  unfold Store.Scoped Store.qualify
  by_cases isEmpty : scope = ""
  · exact .inl isEmpty
  · rw [if_neg isEmpty]
    exact .inr ⟨own, rfl⟩

/-- What comes in under a scope, be it named as it may, leaves alone what is outside. -/
theorem Store.get?_mergeScoped_of_not_scoped (store : Store) {scope : String}
    (outside : ¬Store.Scoped scope name) (properties : List Property) :
    (store.mergeScoped scope properties).get? name = store.get? name := by
  apply Store.get?_merge_of_forall_ne
  intro property propertyMem sameName
  rcases List.mem_map.mp propertyMem with ⟨returned, -, rfl⟩
  apply outside
  rw [← sameName]
  exact Store.scoped_qualify scope returned.name

namespace PropertyAction

theorem get?_copyTo_of_ne {store copied : Store} {target : String} {source : Option String}
    (ne : target ≠ name) (copies : copyTo store target source = .ok copied) :
    copied.get? name = store.get? name := by
  unfold copyTo at copies
  split at copies
  case h_2 => simp at copies
  case h_1 sourceName =>
    split at copies
    case h_2 => simp at copies
    case h_1 property _ =>
      split at copies
      · injection copies with copies
        subst copies
        exact Store.get?_put_of_ne _ ne
      · split at copies
        · injection copies with copies
          subst copies
          rw [NameMap.get?_insert]
          exact if_neg (Ne.symm ne)
        · simp at copies

theorem get?_setTo_of_ne (store : Store) {target : String} (literal : Option String)
    (kind : Option PropertyKind) (ne : target ≠ name) :
    (setTo store target literal kind).1.get? name = store.get? name := by
  unfold setTo
  split
  · rfl
  · dsimp only
    split <;> (rw [NameMap.get?_insert]; exact if_neg (Ne.symm ne))

/-- A property action, failing or not, changes nothing but its target. -/
theorem get?_apply_of_ne (action : PropertyAction) (store : Store) (ne : action.target ≠ name) :
    (action.apply store).1.get? name = store.get? name := by
  unfold apply
  cases action.verb with
  | clear =>
      dsimp only
      split
      · rw [NameMap.get?_insert]
        exact if_neg (Ne.symm ne)
      · rfl
  | delete =>
      rw [NameMap.get?_erase]
      exact if_neg (Ne.symm ne)
  | copy =>
      dsimp only
      split
      case h_1 copied copies => exact get?_copyTo_of_ne ne copies
      case h_2 => rfl
  | set => exact get?_setTo_of_ne store _ _ ne

end PropertyAction

end Stores

/-! ### Visits that spare a name -/

/-- The protocol that allows all requests and keeps nothing in mind. -/
def unruled : Protocol Unit where
  allows _ _ := True
  after _ _ _ := ()

theorem Program.always_iff_obeys {condition : α → Prop} {program : Program α} :
    program.Always condition ↔ program.Obeys unruled () fun value _ => condition value := by
  induction program with
  | done value => exact Iff.rfl
  | ask request next ih =>
      constructor
      · intro always
        exact ⟨True.intro, fun answer => (ih answer).mp (always answer)⟩
      · intro obeys answer
        exact (ih answer).mpr (obeys.2 answer)

def Context.cell (context : Context) (name : String) : Option Property :=
  context.properties.get? name

/-- However a visit ends, unless it crashes, a name reads what it read before. -/
def Visit.Spares (name : String) (visit : Visit α) : Prop :=
  ∀ frame, visit.Obeys unruled frame () fun outcome left _ =>
    outcome ≠ .error .crashed → left.context.cell name = frame.context.cell name

/-- However a run ends, unless it crashes, a name reads what it read before. -/
def Program.SparesIn (name : String) (run : Context → Program ScriptRun) : Prop :=
  ∀ context, (run context).Always fun ran =>
    ran.ending ≠ .crashed → ran.context.cell name = context.cell name

theorem Visit.obeys_trivial (visit : Visit α) (frame : Frame) :
    visit.Obeys unruled frame () fun _ _ _ => True :=
  Program.always_iff_obeys.mp (Program.Always.trivial _)

theorem Visit.unbind_of_ne {outcome : Except Abort Flow} (notCrashed : outcome ≠ .error .crashed)
    (element : String) (store : Store) : unbind element outcome store = store.erase element := by
  rcases outcome with (_ | _ | error) | flow
  · rfl
  · exact absurd rfl notCrashed
  · rfl
  · rfl

/-- A list is gone through only if the name for its items is free. -/
theorem Visit.get?_of_foreachItems {store : Store} {list element : String} {items : List Property}
    (found : foreachItems store list element = .ok items) : store.get? element = none := by
  unfold foreachItems at found
  split at found
  case h_2 => simp at found
  case h_1 property _ =>
    split at found
    case h_2 => simp at found
    case h_1 listed _ =>
      split at found
      · simp at found
      · rename_i unbound
        simpa [NameMap.contains] using unbound

namespace Visit.Spares

variable {name : String}

theorem pure (value : α) : (Pure.pure value : Visit α).Spares name := fun _ _ => rfl

theorem abort (reason : Abort) : (Visit.abort reason : Visit α).Spares name := fun _ _ => rfl

theorem fail (error : EngineError) : (Visit.fail error : Visit α).Spares name := abort _

theorem bind {visit : Visit α} {next : α → Visit β} (first : visit.Spares name)
    (rest : ∀ value, (next value).Spares name) : (visit >>= next).Spares name := by
  intro frame
  rw [Visit.obeys_bind]
  refine (first frame).imp ?_
  rintro (reason | value) middle ⟨⟩ same
  · exact fun notCrashed => same fun crashed => notCrashed (congrArg _ (Except.error.inj crashed))
  · refine (rest value middle).imp ?_
    intro outcome left _ sameLater notCrashed
    exact (sameLater notCrashed).trans (same nofun)

theorem ask (request : Request) : (Visit.ask request).Spares name :=
  fun _ => ⟨True.intro, fun _ _ => rfl⟩

theorem context : Visit.context.Spares name := fun _ _ => rfl

theorem store : Visit.store.Spares name := fun _ _ => rfl

theorem ofExcept (outcome : Except EngineError α) : (Visit.ofExcept outcome).Spares name := by
  intro frame
  rw [Visit.obeys_ofExcept]
  exact fun _ => rfl

theorem modify {change : Frame → Frame}
    (same : ∀ frame, (change frame).context.cell name = frame.context.cell name) :
    (Visit.modify change).Spares name := fun frame _ => same frame

theorem modifyStore {change : Store → Store}
    (same : ∀ store, (change store).get? name = store.get? name) :
    (Visit.modifyStore change).Spares name := modify fun frame => same frame.context.properties

theorem put {property : Property} (ne : property.name ≠ name) :
    (Visit.put property).Spares name := modifyStore fun store => store.get?_put_of_ne ne

theorem moveTo {change : Context → Context}
    (same : ∀ context, (change context).properties = context.properties) :
    (Visit.moveTo change).Spares name := by
  intro frame
  refine ⟨True.intro, fun _ _ => ?_⟩
  exact congrArg (·.get? name) (same frame.context)

theorem record (entry : ScriptEntry) : (Visit.record entry).Spares name := modify fun _ => rfl

theorem log (level : LogLevel) (messages : List String) : (Visit.log level messages).Spares name :=
  (ask _).bind fun _ => context.bind fun _ => modify fun _ => rfl

theorem checkpoint : Visit.checkpoint.Spares name := by
  apply (ask _).bind
  intro goesOn
  split
  · exact pure ()
  · exact abort _

theorem sequence {steps : List (Visit Flow)} (spare : ∀ step ∈ steps, step.Spares name) :
    (Visit.sequence steps).Spares name := by
  induction steps with
  | nil => exact pure _
  | cons first rest ih =>
      apply (spare first List.mem_cons_self).bind
      intro flow
      cases flow with
      | next => exact ih fun step stepMem => spare step (List.mem_cons_of_mem _ stepMem)
      | leave => exact pure _

theorem siblings {steps : List (UInt32 × Visit Flow)}
    (spare : ∀ step ∈ steps, step.2.Spares name) : (Visit.siblings steps).Spares name := by
  apply sequence
  intro step stepMem
  rcases List.mem_map.mp stepMem with ⟨ordered, orderedMem, rfl⟩
  exact spare ordered ((inOrder_perm Prod.fst steps).mem_iff.mp orderedMem)

/-! ### Steps that hold steps -/

theorem condition (guard : Guard) {body : Visit Flow} (bodySpares : body.Spares name) :
    (Visit.condition guard body).Spares name := by
  apply store.bind
  intro properties
  split
  · exact bodySpares
  · exact pure _

theorem breakLoop (guards : List Guard) : (Visit.breakLoop guards).Spares name :=
  store.bind fun _ => pure _

theorem waitBefore (wait : UInt64) (iteration : Nat) :
    (Visit.waitBefore wait iteration).Spares name := by
  unfold Visit.waitBefore
  split
  · exact (ask _).bind fun _ => checkpoint
  · exact pure _

theorem isOver (deadline : Option Nat) : (Visit.isOver deadline).Spares name := by
  cases deadline with
  | none => exact pure _
  | some deadline => exact (ask _).bind fun _ => pure _

theorem bindIndex (iteration : Nat) {index : Option String} (ne : index ≠ some name) :
    (Visit.bindIndex iteration index).Spares name := by
  cases index with
  | none => exact pure _
  | some index => exact put fun sameName => ne (congrArg some sameName)

theorem iterate {bounds : LoopBounds} (ne : bounds.index ≠ some name) (deadline : Option Nat)
    {body : Visit Flow} (bodySpares : body.Spares name) (remaining iteration : Nat) :
    (Visit.iterate bounds deadline body remaining iteration).Spares name := by
  induction remaining generalizing iteration with
  | zero => exact pure _
  | succ remaining ih =>
      apply (waitBefore bounds.wait iteration).bind
      intro _
      apply (isOver deadline).bind
      intro timeIsUp
      split
      · exact pure _
      · apply (bindIndex iteration ne).bind
        intro _
        apply bodySpares.bind
        intro flow
        cases flow with
        | next => exact ih (iteration + 1)
        | leave => exact pure _

theorem loop {bounds : LoopBounds} (ne : bounds.index ≠ some name) {body : Visit Flow}
    (bodySpares : body.Spares name) : (Visit.loop bounds body).Spares name := by
  have setsDeadline : (Visit.setDeadline bounds.maxDuration).Spares name := by
    unfold Visit.setDeadline
    split
    · exact (ask _).bind fun _ => pure _
    · exact pure _
  exact setsDeadline.bind fun deadline => iterate ne deadline bodySpares _ _

theorem eachItem {element : String} (ne : element ≠ name) {body : Visit Flow}
    (bodySpares : body.Spares name) (items : List Property) :
    (Visit.eachItem element body items).Spares name := by
  induction items with
  | nil => exact pure _
  | cons item rest ih =>
      have puts : (Visit.put (item.renamed element)).Spares name := put ne
      apply puts.bind
      intro _
      apply bodySpares.bind
      intro flow
      cases flow with
      | next => exact ih
      | leave => exact pure _

/-- A foreach spares the name that it binds, whatever its body does to it: the name is free before
and after. Another name is spared if the body does. -/
theorem foreach (list : String) {element : String} {body : Visit Flow}
    (bodySpares : element ≠ name → body.Spares name) :
    (Visit.foreach list element body).Spares name := by
  intro frame
  simp only [Visit.foreach, Visit.store, Visit.context, Visit.modifyStore, Visit.obeys_bind,
    Visit.obeys_frame, Visit.obeys_pure, Visit.obeys_ofExcept, Visit.obeys_attempt,
    Visit.obeys_modify, Visit.obeys_conclude]
  cases found : Visit.foreachItems frame.context.properties list element with
  | error problem => exact fun _ => True.intro
  | ok items =>
      change (Visit.eachItem element body items).Obeys unruled frame () fun outcome left _ =>
        outcome ≠ .error .crashed →
          (Visit.unbind element outcome left.context.properties).get? name = frame.context.cell name
      by_cases bound : element = name
      · refine (Visit.obeys_trivial _ frame).imp ?_
        intro outcome left _ _ notCrashed
        rw [Visit.unbind_of_ne notCrashed, NameMap.get?_erase, if_pos bound.symm, ← bound]
        exact (get?_of_foreachItems found).symm
      · refine (eachItem bound (bodySpares bound) items frame).imp ?_
        intro outcome left _ same notCrashed
        rw [Visit.unbind_of_ne notCrashed, NameMap.get?_erase, if_neg (Ne.symm bound)]
        exact same notCrashed

theorem lock (lock : String) (timeout : Nat) {body : Visit Flow} (bodySpares : body.Spares name) :
    (Visit.lock lock timeout body).Spares name := by
  apply (ask _).bind
  intro answer
  cases answer with
  | granted =>
      intro frame
      rw [Visit.obeys_bind, Visit.obeys_attempt]
      refine (bodySpares frame).imp fun outcome left _ same => Visit.obeys_bind.mpr ?_
      rw [Visit.obeys_ask]
      exact ⟨True.intro, fun _ => Visit.obeys_conclude.mpr same⟩
  | timedOut => exact fail _
  | cancelled => exact checkpoint.bind fun _ => abort _

/-! ### Steps that call capabilities -/

theorem takeReply (reply : Reply (Except EngineError α)) : (Visit.takeReply reply).Spares name := by
  rcases reply with (error | answer) | _ | _
  · exact fail error
  · exact pure answer
  · exact abort _
  · exact abort _

theorem waitAfter (delay : Option UInt64) : (Visit.waitAfter delay).Spares name := by
  cases delay with
  | none => exact pure _
  | some delay => exact ask _

theorem enterResponse {action : Action} (outside : ¬Store.Scoped action.name name)
    (response : ActionResponse) : (Visit.enterResponse action response).Spares name := by
  unfold Visit.enterResponse
  cases response.status with
  | failed => exact (record _).bind fun _ => fail _
  | passed =>
      have merges := modifyStore fun store =>
        store.get?_mergeScoped_of_not_scoped outside response.returned
      exact merges.bind fun _ => (record _).bind fun _ => pure _

theorem action (setting : Setting) {action : Action} (outside : ¬Store.Scoped action.name name) :
    (Visit.action setting action).Spares name := by
  apply (ofExcept _).bind
  rintro ⟨target, operation⟩
  apply store.bind
  intro properties
  apply (ofExcept _).bind
  intro arguments
  apply context.bind
  intro caller
  apply (ask _).bind
  intro reply
  apply (takeReply reply).bind
  intro response
  exact (waitAfter _).bind fun _ => enterResponse outside _

theorem takeVerification (message : String) (answer : Option (Except EngineError Unit)) :
    (Visit.takeVerification message answer).Spares name := by
  unfold Visit.takeVerification
  split
  · exact pure _
  · exact fail _
  · exact fail _
  · exact abort _

theorem assertion (setting : Setting) (assertion : Assertion) :
    (Visit.assertion setting assertion).Spares name := by
  have verifies (message check property : String) :
      (Visit.verify setting message check property).Spares name := by
    unfold Visit.verify
    split
    · apply store.bind
      intro properties
      apply (ofExcept _).bind
      intro resolved
      exact (ask _).bind fun answer => takeVerification message answer
    · exact fail _
  unfold Visit.assertion
  dsimp only
  split
  · exact fail _
  · split
    · exact verifies _ _ _
    · exact pure _

theorem takeFunctionReply (function : String) (lines : List String)
    (reply : Reply (Except EngineError (List Property))) :
    (Visit.takeFunctionReply function lines reply).Spares name := by
  cases reply with
  | returned answer => exact (log _ lines).bind fun _ => ofExcept _
  | abandoned => exact (log _ lines).bind fun _ => abort _
  | crashed => exact abort _

theorem function (setting : Setting) {function : Function}
    (outside : ¬Store.Scoped function.name name) :
    (Visit.function setting function).Spares name := by
  unfold Visit.function
  split
  · apply store.bind
    intro properties
    apply (ofExcept _).bind
    intro arguments
    apply (ask _).bind
    rintro ⟨lines, reply⟩
    apply (takeFunctionReply _ lines reply).bind
    intro returned
    have merges := modifyStore fun store => store.get?_mergeScoped_of_not_scoped outside returned
    exact merges.bind fun _ => pure _
  · exact fail _

/-! ### Steps that change properties or write lines -/

theorem propertyAction {action : PropertyAction} (ne : action.target ≠ name) :
    (Visit.propertyAction action).Spares name := by
  intro frame
  simp only [Visit.propertyAction, Visit.store, Visit.context, Visit.modifyStore, Visit.obeys_bind,
    Visit.obeys_frame, Visit.obeys_pure, Visit.obeys_modify]
  have same := action.get?_apply_of_ne frame.context.properties ne
  cases (action.apply frame.context.properties).2 with
  | none => exact fun _ => same
  | some error => exact fun _ => same

theorem logger (level : LogLevel) (children : List Step) :
    (Visit.logger level children).Spares name :=
  store.bind fun _ => (log _ _).bind fun _ => pure _

theorem textMessage (message : TextMessage) : (Visit.textMessage message).Spares name :=
  store.bind fun _ => (log _ _).bind fun _ => pure _

/-! ### Scripts -/

theorem embed (script : String) {run : Context → Program ScriptRun}
    (runSpares : Program.SparesIn name run) : (Visit.embed script run).Spares name := by
  intro frame
  simp only [Visit.embed, Visit.context, Visit.obeys_bind, Visit.obeys_frame, Visit.obeys_pure,
    Visit.obeys_lift, Visit.obeys_modify]
  refine (Program.always_iff_obeys.mp (runSpares frame.context)).imp ?_
  intro ran _ same
  -- From here on nothing but the result of the script is entered.
  cases ending : ran.ending with
  | crashed => exact fun notCrashed => absurd rfl notCrashed
  | interrupted => exact fun _ => same (by simp [ending])
  | completed =>
      dsimp only
      rw [Visit.obeys_bind]
      split
      · exact fun _ => same (by simp [ending])
      · exact fun _ => same (by simp [ending])

end Visit.Spares

theorem Program.SparesIn.runScript {name : String} (id script : String) {steps : Visit Flow}
    (spares : steps.Spares name) : SparesIn name (Visit.runScript id script steps) := by
  intro context
  apply Program.Always.thenAny
  intro start
  have moves : (Visit.moveTo fun context => context.enterScript script).Spares name :=
    .moveTo fun _ => rfl
  have visit := Visit.Spares.bind moves fun _ => spares
  have same := Program.always_iff_obeys.mpr (visit ⟨context, [], []⟩)
  refine Program.Always.bind same ?_
  rintro ⟨outcome, left⟩ sameCell
  have completes (result : ScriptResult) (verdict : Verdict) (message : Option String)
      (ending : Ending) (notCrashed : outcome ≠ .error .crashed) :
      (Visit.completeScript result verdict message ending left.context).Always fun ran =>
        ran.ending ≠ .crashed → ran.context.cell name = context.cell name :=
    Program.Always.ask fun _ _ => sameCell notCrashed
  rcases outcome with (_ | _ | error) | flow
  · exact completes _ _ _ _ nofun
  · exact fun notCrashed => absurd rfl notCrashed
  · exact completes _ _ _ _ nofun
  · exact completes _ _ _ _ nofun

/-! ### The induction over the syntax -/

section Syntax

variable {name : String} (setting : Setting)

mutual

theorem Step.visit_spares :
    (step : Step) → ¬step.Writes name → (step.visit setting).Spares name
  | ⟨id, order, kind⟩, untouched => by
      have moves :
          (Visit.moveTo fun context => context.enterStep (kind.name ++ " " ++ id)).Spares name :=
        .moveTo fun _ => rfl
      rw [Step.visit]
      apply Visit.Spares.checkpoint.bind
      intro _
      apply moves.bind
      intro _
      exact kind.visit_spares untouched

theorem StepKind.visit_spares :
    (kind : StepKind) → ¬kind.Writes name → (kind.visit setting).Spares name
  | .logger level children, _ => by
      rw [StepKind.visit]
      exact .logger level children
  | .textMessage message, _ => by
      rw [StepKind.visit]
      exact .textMessage message
  | .condition ⟨guard, children⟩, untouched => by
      rw [StepKind.visit]
      exact .condition guard (.siblings (Step.visits_spare children untouched))
  | .execution children, untouched => by
      rw [StepKind.visit]
      exact .siblings (Step.visits_spare children untouched)
  | .action action, untouched => by
      rw [StepKind.visit]
      exact .action setting untouched
  | .assertion assertion, _ => by
      rw [StepKind.visit]
      exact .assertion setting assertion
  | .loop bounds children, untouched => by
      rw [StepKind.Writes, not_or] at untouched
      rw [StepKind.visit]
      exact .loop untouched.1 (.siblings (Step.visits_spare children untouched.2))
  | .foreach list element children, untouched => by
      rw [StepKind.Writes, not_and] at untouched
      rw [StepKind.visit]
      apply Visit.Spares.foreach list
      intro elementNe
      exact .siblings (Step.visits_spare children (untouched elementNe))
  | .breakLoop conditions, _ => by
      rw [StepKind.visit]
      exact .breakLoop _
  | .lock lock timeout children, untouched => by
      rw [StepKind.visit]
      exact .lock lock _ (.siblings (Step.visits_spare children untouched))
  | .propertyAction action, untouched => by
      rw [StepKind.visit]
      exact .propertyAction untouched
  | .script script, untouched => by
      rw [StepKind.visit]
      exact .embed script.name (script.run_spares untouched)
  | .function function, untouched => by
      rw [StepKind.visit]
      exact .function setting untouched

theorem Step.visits_spare :
    (steps : List Step) → ¬Step.AnyWrites name steps →
      ∀ step ∈ Step.visits setting steps, step.2.Spares name
  | [], _ => by simp [Step.visits]
  | step :: rest, untouched => by
      rw [Step.AnyWrites, not_or] at untouched
      rw [Step.visits, List.forall_mem_cons]
      exact ⟨step.visit_spares untouched.1, Step.visits_spare rest untouched.2⟩

theorem Script.run_spares :
    (script : Script) → ¬script.Writes name → Program.SparesIn name (script.run setting)
  | ⟨id, title, order, steps⟩, untouched => by
      rw [Script.run]
      exact .runScript id title (.siblings (Step.visits_spare steps untouched))

end

end Syntax

/-- A run of a script that does not crash leaves every name that its text does not write as it found
it: whatever the capabilities return, and at whatever point the run is interrupted or fails. -/
theorem Script.run_frame (setting : Setting) (script : Script) (context : Context) (name : String)
    (untouched : ¬script.Writes name) :
    (script.run setting context).Always fun ran =>
      ran.ending ≠ .crashed → ran.context.properties.get? name = context.properties.get? name :=
  script.run_spares setting untouched context

/-- A script that goes through a list under a name that it binds for each item. In its body it sets
that name, runs a loop that calls a backend and, in a script of its own, calls a function. -/
def Script.itemized : Script :=
  ⟨"s", "main", 0, [⟨"1", 0, .foreach "list" "item"
    [⟨"2", 0, .propertyAction ⟨.set, "item", none, some "x", none⟩⟩,
     ⟨"3", 1, .loop ⟨2, 0, some "index", 0⟩ [⟨"4", 0, .action ⟨"call", [], [], none⟩⟩]⟩,
     ⟨"5", 2, .script ⟨"t", "inner", 0, [⟨"6", 0, .function ⟨"compute", "", []⟩⟩]⟩⟩]⟩]⟩

/-- The context of a run that finds one list, of one item. -/
def Context.listing : Context := .ofProperties [.of "list" (.list [.of "first" (.string "x")])]

/-- Neither the backend nor the function reaches the list, and of the items no trace is left. -/
theorem Script.itemized_frame :
    (¬Script.itemized.Writes "list" ∧
      (Script.itemized.run .sample .listing).Always fun ran => ran.ending ≠ .crashed →
        ran.context.properties.get? "list" =
          some (.of "list" (.list [.of "first" (.string "x")]))) ∧
    (¬Script.itemized.Writes "item" ∧
      (Script.itemized.run .sample .listing).Always fun ran => ran.ending ≠ .crashed →
        ran.context.properties.get? "item" = none) := by
  have apart (scope own : String) (begins : scope.toList.head? = some 'c') :
      ¬"list" = scope ++ own := by
    intro same
    have sameHead := congrArg (fun text => text.toList.head?) same
    simp [begins] at sameHead
  have listUntouched : ¬Script.itemized.Writes "list" := by
    simpa [Script.itemized, Script.Writes, Step.AnyWrites, Step.Writes, StepKind.Writes,
      Store.Scoped] using And.intro (apart "call." · rfl) (apart "compute." · rfl)
  have itemUntouched : ¬Script.itemized.Writes "item" := by
    simp [Script.itemized, Script.Writes, Step.AnyWrites, Step.Writes, StepKind.Writes]
  exact ⟨⟨listUntouched, Script.run_frame .sample .itemized .listing "list" listUntouched⟩,
    ⟨itemUntouched, Script.run_frame .sample .itemized .listing "item" itemUntouched⟩⟩

end TestEngine
