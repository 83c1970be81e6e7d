import TestEngine.Proofs.Protocol
import TestEngine.Proofs.Script.Closure
import TestEngine.Proofs.Walk.Law

/-!
# Laws of contexts

A run changes its context in few ways: it enters scripts and steps, it stores and erases properties,
and it carries out property actions. `ContextLaw` says what these, and the requests of the run, have
to do with a relation of the context and of what a protocol knows. `ContextLaw.script` and
`ContextLaw.configuration` are what comes of it: whatever the capabilities answer, the run keeps to
the protocol, and the relation holds of the context that it leaves.
-/

namespace TestEngine

variable {σ α β : Type}

/-- Whether a request has nothing to do with the context of the run. -/
def Request.isAside : Request → Bool
  | .moveTo _ | .perform _ => false
  | _ => true

/-- What has to be known of a relation of contexts and of a protocol for every run to keep it. -/
structure ContextLaw (protocol : Protocol σ) (good : Context → σ → Prop) : Prop where
  ask {context : Context} {state : σ} (isGood : good context state) {request : Request}
    (aside : request.isAside) :
    protocol.allows state request ∧
      ∀ answer, good context (protocol.after state request answer)
  perform {state : σ} {call : ActionCall} (isGood : good call.context state) :
    protocol.allows state (.perform call) ∧
      ∀ answer, good call.context (protocol.after state (.perform call) answer)
  enterScript {context : Context} {state : σ} (isGood : good context state) (name : String) :
    let moved := context.enterScript name
    protocol.allows state (.moveTo moved.cursor) ∧
      good moved (protocol.after state (.moveTo moved.cursor) ())
  enterStep {context : Context} {state : σ} (isGood : good context state) (label : String) :
    let moved := context.enterStep label
    protocol.allows state (.moveTo moved.cursor) ∧
      good moved (protocol.after state (.moveTo moved.cursor) ())
  put {context : Context} {state : σ} (isGood : good context state) (property : Property) :
    good { context with properties := context.properties.put property } state
  erase {context : Context} {state : σ} (isGood : good context state) (name : String) :
    good { context with properties := context.properties.erase name } state
  apply {context : Context} {state : σ} (isGood : good context state) (action : PropertyAction) :
    good { context with properties := (action.apply context.properties).1 } state

/-- A visit that keeps to a protocol and to a relation of the context and the state. -/
def Visit.Maintains (protocol : Protocol σ) (good : Context → σ → Prop) (visit : Visit α) : Prop :=
  ∀ frame state, good frame.context state →
    visit.Obeys protocol frame state fun _ left state => good left.context state

/-- The same of the run of a script, in the context that it is given. -/
def Program.Maintains (protocol : Protocol σ) (good : Context → σ → Prop)
    (run : Context → Program ScriptRun) : Prop :=
  ∀ context state, good context state →
    (run context).Obeys protocol state fun ran state => good ran.context state

variable {protocol : Protocol σ} {good : Context → σ → Prop}

theorem Visit.Maintains.embed (name : String) {run : Context → Program ScriptRun}
    (runs : Program.Maintains protocol good run) :
    (Visit.embed name run).Maintains protocol good := by
  intro frame state isGood
  simp only [Visit.embed, Visit.context, Visit.obeys_bind, Visit.obeys_frame, Visit.obeys_pure,
    Visit.obeys_lift, Visit.obeys_modify]
  refine (runs frame.context state isGood).imp ?_
  intro ran left ranGood
  -- From here on nothing but the result of the script is entered.
  cases ran.ending with
  | crashed => exact ranGood
  | interrupted => exact ranGood
  | completed =>
      dsimp only
      rw [Visit.obeys_bind]
      split <;> exact ranGood

namespace ContextLaw

variable (law : ContextLaw protocol good)
  {context : Context} {state : σ}

include law

theorem merge (isGood : good context state) (properties : List Property) :
    good { context with properties := context.properties.merge properties } state := by
  induction properties generalizing context with
  | nil => exact isGood
  | cons property rest ih => exact ih (law.put isGood property)

theorem inherits : Visit.InheritsCalls fun _ visit => visit.Maintains protocol good where
  pure _ _ _ isGood := isGood
  abort _ _ _ isGood := isGood
  bind first rest := by
    intro frame state isGood
    rw [Visit.obeys_bind]
    refine (first frame state isGood).imp ?_
    rintro (reason | value) left after stillGood
    · exact stillGood
    · exact rest value left after stillGood
  attempt tried := by
    intro frame state isGood
    rw [Visit.obeys_attempt]
    exact tried frame state isGood
  frame _ _ isGood := isGood
  report keeps := by
    intro frame state isGood
    rw [Visit.obeys_modify, keeps]
    exact isGood
  put property _ _ isGood := law.put isGood property
  erase name _ _ isGood := law.erase isGood name
  mergeScoped _ _ _ _ isGood := law.merge isGood _
  propertyAction action := by
    intro frame state isGood
    simp only [Visit.propertyAction, Visit.store, Visit.context, Visit.modifyStore,
      Visit.obeys_bind, Visit.obeys_frame, Visit.obeys_pure, Visit.obeys_modify]
    have applied := law.apply isGood action
    cases (action.apply frame.context.properties).2 with
    | none => exact applied
    | some error => exact applied
  ask request indifferent := by
    intro frame state isGood
    refine Visit.obeys_ask.mpr (law.ask isGood ?_)
    cases request <;> first | rfl | cases indifferent
  perform := by
    intro α call ofContext next rest frame state isGood
    have isContext := ofContext frame.context
    rw [← isContext] at isGood
    have asked := law.perform isGood
    rw [isContext] at asked
    simp only [Visit.context, Visit.obeys_bind, Visit.obeys_frame, Visit.obeys_pure]
    exact ⟨asked.1, fun reply => rest frame.context reply frame _ (asked.2 reply)⟩
  execute _ _ _ isGood := Visit.obeys_ask.mpr (law.ask isGood rfl)
  verify _ _ _ _ isGood := Visit.obeys_ask.mpr (law.ask isGood rfl)

theorem enterStep_maintains (label : String) :
    (Visit.moveTo fun context => context.enterStep label).Maintains protocol good := by
  intro frame state isGood
  simp only [Visit.moveTo, Visit.context, Visit.obeys_bind, Visit.obeys_frame, Visit.obeys_pure,
    Visit.obeys_modify]
  exact ⟨(law.enterStep isGood label).1, fun _ => (law.enterStep isGood label).2⟩

theorem enterScript_maintains (name : String) :
    (Visit.moveTo fun context => context.enterScript name).Maintains protocol good := by
  intro frame state isGood
  simp only [Visit.moveTo, Visit.context, Visit.obeys_bind, Visit.obeys_frame, Visit.obeys_pure,
    Visit.obeys_modify]
  exact ⟨(law.enterScript isGood name).1, fun _ => (law.enterScript isGood name).2⟩

theorem runScript_maintains (id name : String) {body : Visit Flow}
    (bodyMaintains : body.Maintains protocol good) :
    Program.Maintains protocol good (Visit.runScript id name body) := by
  intro context state isGood
  have visits : Visit.Maintains protocol good (do
      Visit.moveTo fun context => context.enterScript name
      body) := law.inherits.bind (law.enterScript_maintains name) fun _ => bodyMaintains
  have now : protocol.allows state .now ∧
      ∀ start : Calendar.Instant, good context (protocol.after state .now start) :=
    law.ask isGood rfl
  refine Program.obeys_ask.mpr ⟨now.1, fun start => ?_⟩
  have visited := visits ⟨context, [], []⟩ _ (now.2 start)
  refine Program.obeys_bind.mpr (Program.Obeys.imp visited ?_)
  rintro ⟨outcome, left⟩ after leftGood
  have completes (result : ScriptResult) (verdict : Verdict) (message : Option String)
      (ending : Ending) :
      (Visit.completeScript result verdict message ending left.context).Obeys protocol after
        fun ran state => good ran.context state :=
    Program.obeys_ask.mpr (law.ask leftGood rfl)
  rcases outcome with (_ | _ | error) | flow
  · exact completes _ _ _ _
  · exact leftGood
  · exact completes _ _ _ _
  · exact completes _ _ _ _

theorem visitLaw (setting : Setting) :
    VisitLaw setting (fun _ => True) (Visit.Maintains protocol good)
      (Visit.Maintains protocol good) fun _ => Program.Maintains protocol good :=
  law.inherits.visitLaw setting law.enterStep_maintains
    (fun _ _ _ =>
      law.inherits.lock (fun _ _ isGood => law.ask isGood rfl) fun _ _ isGood => law.ask isGood rfl)
    (fun id name _ => law.runScript_maintains id name) fun name _ => .embed name

/-- Every run of a script keeps to the protocol and to the relation. -/
theorem script (setting : Setting) (script : Script) :
    Program.Maintains protocol good (script.run setting) :=
  (law.visitLaw setting).run script (script.everyLoop_of_forall fun _ => trivial)

theorem walkLaw (setting : Setting) :
    WalkLaw setting fun _ context program left => ∀ state, good context state →
      program.Obeys protocol state fun value state => good (left value) state where
  pure unchanged state isGood := by
    rw [Program.obeys_pure, unchanged]
    exact isGood
  bind first rest state isGood := by
    refine Program.obeys_bind.mpr ((first state isGood).imp ?_)
    exact fun value state isGood => rest value state isGood
  ask := by
    intro α context request indifferent next left rest state isGood
    have aside : request.isAside := by
      cases request <;> first | rfl | cases indifferent
    have asked := law.ask isGood aside
    exact Program.obeys_ask.mpr ⟨asked.1, fun answer => rest answer _ (asked.2 answer)⟩
  merge properties _ _ merged state isGood := merged state (law.merge isGood properties)
  script script context state isGood := law.script setting script context state isGood

/-- Every run of a configuration keeps to the protocol and to the relation. -/
theorem configuration (setting : Setting) (configuration : Configuration)
    (isGood : good context state) :
    (configuration.run setting context).Obeys protocol state
      fun ran state => good ran.context state :=
  (law.walkLaw setting).configuration configuration state isGood

end ContextLaw

end TestEngine
