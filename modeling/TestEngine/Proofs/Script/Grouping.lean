import TestEngine.Proofs.Exchange
import TestEngine.Proofs.Script.Closure
import TestEngine.Proofs.Script.Rearrangement
import TestEngine.Proofs.Script.Related

/-!
# Locks as groups

A step that locks something is a group of steps that asks for a lock before it is visited and gives
the lock back behind it. `Script.unlocked` makes plain groups of all such steps. A visit of the
script and one of the other are the same but for that, as long as every lock is granted, and for the
name of the place where a run stands between entering such a step and the first step of its body.
-/

namespace TestEngine

variable {α β γ δ : Type}

/-! ### Syntax -/

mutual

/-- The step with groups in the place of all the steps that lock something. -/
def Step.unlocked : Step → Step
  | ⟨id, order, kind⟩ => ⟨id, order, kind.unlocked⟩

def StepKind.unlocked : StepKind → StepKind
  | .logger level children => .logger level (Step.allUnlocked children)
  | .textMessage message => .textMessage message
  | .condition block => .condition block.unlocked
  | .execution children => .execution (Step.allUnlocked children)
  | .action action => .action action
  | .assertion assertion => .assertion assertion
  | .loop bounds children => .loop bounds (Step.allUnlocked children)
  | .foreach list element children => .foreach list element (Step.allUnlocked children)
  | .breakLoop conditions => .breakLoop (Block.allUnlocked conditions)
  | .lock _ _ children => .execution (Step.allUnlocked children)
  | .propertyAction action => .propertyAction action
  | .script script => .script script.unlocked
  | .function function => .function function

def Step.allUnlocked : List Step → List Step
  | [] => []
  | step :: rest => step.unlocked :: Step.allUnlocked rest

def Block.unlocked : Block → Block
  | ⟨guard, children⟩ => ⟨guard, Step.allUnlocked children⟩

def Block.allUnlocked : List Block → List Block
  | [] => []
  | block :: rest => block.unlocked :: Block.allUnlocked rest

def Script.unlocked : Script → Script
  | ⟨id, name, order, steps⟩ => ⟨id, name, order, Step.allUnlocked steps⟩

end

mutual

/-- No step that locks a name is visited in the body of one that locks the same name, or while one
of some given names is locked. What a logger or a guard of a break holds is never visited. -/
def Step.LocksApart (held : List String) : Step → Prop
  | ⟨_, _, kind⟩ => kind.LocksApart held

def StepKind.LocksApart (held : List String) : StepKind → Prop
  | .lock name _ children => name ∉ held ∧ Step.AllLocksApart (name :: held) children
  | .condition ⟨_, children⟩ => Step.AllLocksApart held children
  | .execution children => Step.AllLocksApart held children
  | .loop _ children => Step.AllLocksApart held children
  | .foreach _ _ children => Step.AllLocksApart held children
  | .script script => script.LocksApart held
  | .logger .. => True
  | .textMessage _ => True
  | .action _ => True
  | .assertion _ => True
  | .breakLoop _ => True
  | .propertyAction _ => True
  | .function _ => True

def Step.AllLocksApart (held : List String) : List Step → Prop
  | [] => True
  | step :: rest => step.LocksApart held ∧ Step.AllLocksApart held rest

def Script.LocksApart (held : List String) : Script → Prop
  | ⟨_, _, _, steps⟩ => Step.AllLocksApart held steps

end

theorem Block.guards_allUnlocked : (blocks : List Block) →
    (Block.allUnlocked blocks).map Block.guard = blocks.map Block.guard
  | [] => rfl
  | ⟨guard, _⟩ :: rest => congrArg (guard :: ·) (Block.guards_allUnlocked rest)

theorem Step.texts_allUnlocked : (steps : List Step) →
    Step.texts (Step.allUnlocked steps) = Step.texts steps
  | [] => rfl
  | ⟨id, order, kind⟩ :: rest => by
      have ih := Step.texts_allUnlocked rest
      rw [Step.texts] at ih ⊢
      rw [Step.allUnlocked, Step.unlocked, List.filterMap_cons, ih, Step.texts, Step.texts,
        List.filterMap_cons]
      cases kind <;> rfl

/-! ### What is left behind -/

/-- The places that two runs are at of which one locks what the other one groups. -/
inductive Cursor.UnlocksTo : Cursor → Cursor → Prop
  | same (cursor : Cursor) : UnlocksTo cursor cursor
  /-- Nothing has been visited since the step was entered. -/
  | entered (script : Option String) (id : String) :
      UnlocksTo ⟨script, some ("lock " ++ id)⟩ ⟨script, some ("execution " ++ id)⟩

/-- Two contexts that differ in the places at most. -/
structure Context.UnlocksTo (context other : Context) : Prop where
  cursor : context.cursor.UnlocksTo other.cursor
  same : other = { context with cursor := other.cursor }

structure Frame.UnlocksTo (frame other : Frame) : Prop where
  context : frame.context.UnlocksTo other.context
  same : other = { frame with context := other.context }

structure ScriptRun.UnlocksTo (ran other : ScriptRun) : Prop where
  result : other.result = ran.result
  ending : other.ending = ran.ending
  context : ran.context.UnlocksTo other.context

theorem Cursor.UnlocksTo.script {cursor other : Cursor} (unlocks : cursor.UnlocksTo other) :
    other.script = cursor.script := by
  cases unlocks <;> rfl

theorem Context.UnlocksTo.refl (context : Context) : context.UnlocksTo context :=
  ⟨.same _, rfl⟩

theorem Frame.UnlocksTo.refl (frame : Frame) : frame.UnlocksTo frame := ⟨.refl _, rfl⟩

theorem Frame.UnlocksTo.properties {frame other : Frame} (unlocks : frame.UnlocksTo other) :
    other.context.properties = frame.context.properties := by
  rw [unlocks.context.same]

theorem Context.UnlocksTo.enterScript {context other : Context} (unlocks : context.UnlocksTo other)
    (name : String) : other.enterScript name = context.enterScript name := by
  rw [unlocks.same]
  rfl

theorem Context.UnlocksTo.enterStep {context other : Context} (unlocks : context.UnlocksTo other)
    (label : String) : other.enterStep label = context.enterStep label := by
  have sameScript := unlocks.cursor.script
  rw [unlocks.same, Context.enterStep, Context.enterStep]
  dsimp only
  rw [sameScript]

/-! ### Programs -/

/-- A program, and the one that does the same without locks. The first one asks for locks that it
does not hold; it begins with some and ends with others, and is to be granted what it asks for. -/
inductive Program.UnlocksTo (same : α → β → Prop) (home : List String) :
    List String → Program α → Program β → Prop
  | done {value : α} {other : β} (sameValue : same value other) :
      UnlocksTo same home home (.done value) (.done other)
  | ask {held : List String} {request : Request} {next : request.Answer → Program α}
      {otherNext : request.Answer → Program β}
      (goesOn : ∀ answer, UnlocksTo same home held (next answer) (otherNext answer)) :
      UnlocksTo same home held (.ask request next) (.ask request otherNext)
  | moveTo {held : List String} {cursor other : Cursor} {next : Unit → Program α}
      {otherNext : Unit → Program β} (places : cursor.UnlocksTo other)
      (goesOn : UnlocksTo same home held (next ()) (otherNext ())) :
      UnlocksTo same home held (.ask (.moveTo cursor) next) (.ask (.moveTo other) otherNext)
  | acquire {held : List String} {name : String} {timeout : Nat} {next : LockAnswer → Program α}
      {other : Program β} (apart : name ∉ held)
      (goesOn : UnlocksTo same home (name :: held) (next .granted) other) :
      UnlocksTo same home held (.ask (.acquire name timeout) next) other
  | release {held : List String} {name : String} {next : Unit → Program α} {other : Program β}
      (goesOn : UnlocksTo same home held (next ()) other) :
      UnlocksTo same home (name :: held) (.ask (.release name) next) other

namespace Program.UnlocksTo

theorem bind {relation : α → β → Prop} {same : γ → δ → Prop} {middle home held : List String}
    {program : Program α} {other : Program β} {next : α → Program γ} {otherNext : β → Program δ}
    (first : program.UnlocksTo relation middle held other)
    (goesOn : ∀ value otherValue, relation value otherValue →
      (next value).UnlocksTo same home middle (otherNext otherValue)) :
    (program >>= next).UnlocksTo same home held (other >>= otherNext) := by
  change (program.bind next).UnlocksTo same home held (other.bind otherNext)
  induction first with
  | done sameValue => exact goesOn _ _ sameValue
  | ask _ ih => exact .ask ih
  | moveTo places _ ih => exact .moveTo places ih
  | acquire apart _ ih => exact .acquire apart ih
  | release _ ih => exact .release ih

theorem refl {same : α → α → Prop} (sameValue : ∀ value, same value value) (held : List String)
    (program : Program α) : program.UnlocksTo same held held program := by
  induction program with
  | done value => exact .done (sameValue value)
  | ask request next ih => exact .ask ih

end Program.UnlocksTo

/-- The comparison of programs that go without locks, while some locks are held. -/
def Comparison.unlocking (held : List String) : Comparison where
  relates same := Program.UnlocksTo same held held
  done := .done
  ask := .ask
  bind := .bind

/-! ### Visits -/

/-- Visits that begin and end with the same locks, and the same without locks. -/
abbrev Visit.UnlocksTo (held : List String) (visit other : Visit α) : Prop :=
  visit.Related (.unlocking held) Frame.UnlocksTo other

namespace Visit.UnlocksTo

variable {held : List String} {frame otherFrame : Frame}

/-- A visit does the same in the same frame. -/
theorem self (visit : Visit α) (frame : Frame) :
    visit.RelatedFrom (.unlocking held) Frame.UnlocksTo visit frame frame :=
  Program.UnlocksTo.refl (fun ended => ⟨rfl, .refl ended.2⟩) held _

theorem store {next otherNext : Store → Visit α}
    (goesOn : ∀ store, (next store).UnlocksTo held (otherNext store)) :
    Visit.UnlocksTo held (Visit.store >>= next) (Visit.store >>= otherNext) := by
  intro frame otherFrame unlocks
  change (next frame.context.properties).RelatedFrom (.unlocking held) Frame.UnlocksTo
    (otherNext otherFrame.context.properties) frame otherFrame
  rw [unlocks.properties]
  exact goesOn _ frame otherFrame unlocks

theorem modifyStore (change : Store → Store) :
    Visit.UnlocksTo held (Visit.modifyStore change) (Visit.modifyStore change) := by
  refine Visit.Related.modify fun frame otherFrame unlocks => ⟨⟨unlocks.context.cursor, ?_⟩, ?_⟩
  · rw [unlocks.properties]
    exact congrArg (fun context : Context => { context with
      properties := change frame.context.properties }) unlocks.context.same
  · rw [unlocks.same]

theorem record (entry : ScriptEntry) :
    Visit.UnlocksTo held (Visit.record entry) (Visit.record entry) := by
  refine Visit.Related.modify fun frame otherFrame unlocks => ⟨unlocks.context, ?_⟩
  rw [unlocks.same]

theorem bindIndex (iteration : Nat) (index : Option String) :
    Visit.UnlocksTo held (Visit.bindIndex iteration index) (Visit.bindIndex iteration index) := by
  cases index with
  | none => exact .pure ()
  | some index => exact modifyStore fun store => store.put _

/-! #### Steps that hold steps -/

theorem siblings {steps others : List (UInt32 × Visit Flow)}
    (unlock : List.Forall₂ (fun step other => step.1 = other.1 ∧ step.2.UnlocksTo held other.2)
      steps others) :
    Visit.UnlocksTo held (Visit.siblings steps) (Visit.siblings others) := by
  refine .sequence (List.forall₂_map_left_iff.mpr (List.forall₂_map_right_iff.mpr ?_))
  exact (forall₂_inOrder (fun _ _ unlocks => unlocks.1) unlock).imp fun _ _ unlocks => unlocks.2

section Bodies

variable {body otherBody : Visit Flow}

theorem condition (guard : Guard) (unlocks : body.UnlocksTo held otherBody) :
    Visit.UnlocksTo held (Visit.condition guard body) (Visit.condition guard otherBody) := by
  refine store fun properties => ?_
  split
  · exact unlocks
  · exact .pure _

theorem foreach (list element : String) (unlocks : body.UnlocksTo held otherBody) :
    Visit.UnlocksTo held (Visit.foreach list element body)
      (Visit.foreach list element otherBody) := by
  refine store fun properties => .bind (.ofExcept _) fun items => ?_
  refine .bind (.attempt (.eachItem element (fun _ => modifyStore _) unlocks items)) fun _ => ?_
  exact .bind (modifyStore _) fun _ => .conclude _

/-- A lock that is not held is asked for and given back, and nothing else is done for it. -/
theorem lock {name : String} (apart : name ∉ held) (timeout : Nat)
    (unlocks : body.UnlocksTo (name :: held) otherBody) :
    Visit.UnlocksTo held (Visit.lock name timeout body) otherBody := by
  intro frame otherFrame framesUnlock
  refine .acquire apart ?_
  change Program.UnlocksTo _ held (name :: held)
    ((Visit.attempt body >>= fun outcome => Visit.ask (.release name) >>= fun _ =>
      Visit.conclude outcome).run.run frame) (otherBody.run.run otherFrame)
  rw [Visit.run_attempt, ← bind_pure (otherBody.run.run otherFrame)]
  refine (unlocks frame otherFrame framesUnlock).bind ?_
  rintro ⟨outcome, reached⟩ ⟨_, otherReached⟩ ⟨rfl, reachedUnlock⟩
  refine .release ?_
  cases outcome with
  | ok flow => exact .done ⟨rfl, reachedUnlock⟩
  | error reason => exact .done ⟨rfl, reachedUnlock⟩

/-! #### Scripts -/

theorem completeScript (result : ScriptResult) (verdict : Verdict) (message : Option String)
    (ending : Ending) {context other : Context} (unlocks : context.UnlocksTo other) :
    (Visit.completeScript result verdict message ending context).UnlocksTo ScriptRun.UnlocksTo held
      held (Visit.completeScript result verdict message ending other) :=
  .ask fun _ => .done ⟨rfl, rfl, unlocks⟩

theorem runScript (id name : String) (unlocks : body.UnlocksTo held otherBody)
    {context other : Context} (contextsUnlock : context.UnlocksTo other) :
    (Visit.runScript id name body context).UnlocksTo ScriptRun.UnlocksTo held held
      (Visit.runScript id name otherBody other) := by
  have sameScript := contextsUnlock.enterScript name
  have entered : ((do Visit.moveTo fun context => context.enterScript name; body) :
      Visit Flow).RelatedFrom (.unlocking held) Frame.UnlocksTo
        (do Visit.moveTo fun context => context.enterScript name; otherBody)
        ⟨context, [], []⟩ ⟨other, [], []⟩ := by
    change Program.UnlocksTo _ held held
      (.ask (.moveTo (context.enterScript name).cursor) fun _ =>
        body.run.run ⟨context.enterScript name, [], []⟩)
      (.ask (.moveTo (other.enterScript name).cursor) fun _ =>
        otherBody.run.run ⟨other.enterScript name, [], []⟩)
    rw [sameScript]
    exact .ask fun _ => unlocks _ _ (.refl _)
  refine Comparison.request (.unlocking held) fun start => Program.UnlocksTo.bind entered ?_
  rintro ⟨outcome, reached⟩ ⟨_, otherReached⟩ ⟨rfl, reachedUnlock⟩
  dsimp only at reachedUnlock ⊢
  have sameLog : otherReached.log = reached.log := by rw [reachedUnlock.same]
  have sameEntries : otherReached.entries = reached.entries := by rw [reachedUnlock.same]
  rw [sameLog, sameEntries]
  rcases outcome with (_ | _ | error) | flow
  · exact completeScript _ _ _ _ reachedUnlock.context
  · exact .done ⟨rfl, rfl, reachedUnlock.context⟩
  · exact completeScript _ _ _ _ reachedUnlock.context
  · exact completeScript _ _ _ _ reachedUnlock.context

theorem embed (name : String) {run otherRun : Context → Program ScriptRun}
    (unlocks : ∀ context other, context.UnlocksTo other →
      (run context).UnlocksTo ScriptRun.UnlocksTo held held (otherRun other)) :
    Visit.UnlocksTo held (Visit.embed name run) (Visit.embed name otherRun) := by
  intro frame otherFrame framesUnlock
  have runs : Comparison.relates (.unlocking held) ScriptRun.UnlocksTo (run frame.context)
      (otherRun otherFrame.context) := unlocks _ _ framesUnlock.context
  refine Visit.Related.lift runs ?_ frame otherFrame framesUnlock
  rintro ran otherRan ⟨sameResult, sameEnding, contextsUnlock⟩
  rw [sameResult, sameEnding]
  refine .bind (.modify ?_) fun _ => ?_
  · intro frame otherFrame framesUnlock
    refine ⟨contextsUnlock, ?_⟩
    rw [framesUnlock.same]
  · cases ran.ending with
    | crashed => exact .abort _
    | interrupted => exact .bind (record _) fun _ => .abort _
    | completed =>
        refine .bind (record _) fun _ => ?_
        split
        · exact .fail _
        · exact .pure _

end Bodies

end Visit.UnlocksTo

/-! ### The induction over the syntax -/

theorem StepKind.name_unlocked (kind : StepKind) :
    kind.unlocked.name = kind.name ∨ kind.name = "lock" ∧ kind.unlocked.name = "execution" := by
  cases kind <;> simp [unlocked, name]

theorem Context.UnlocksTo.enterKind {context other : Context} (unlocks : context.UnlocksTo other)
    (kind : StepKind) (id : String) :
    (context.enterStep (kind.name ++ " " ++ id)).UnlocksTo
      (other.enterStep (kind.unlocked.name ++ " " ++ id)) := by
  constructor
  · simp only [Context.enterStep, unlocks.cursor.script]
    rcases kind.name_unlocked with same | ⟨isLock, isExecution⟩
    · rw [same]
      exact .same _
    · rw [isLock, isExecution]
      exact .entered _ id
  · rw [unlocks.same]
    rfl

/-- What a step does is the same without locks once both have entered the step. Only if the step
itself locks something they are said to be at different places then. -/
abbrev StepKind.UnlocksFrom (held : List String) (visit other : Visit Flow) (kind : StepKind) :
    Prop :=
  ∀ frame otherFrame, frame.UnlocksTo otherFrame →
    (kind.unlocked.name = kind.name → otherFrame = frame) →
      visit.RelatedFrom (.unlocking held) Frame.UnlocksTo other frame otherFrame

theorem Visit.UnlocksTo.step {held : List String} {visit other : Visit Flow} {id : String}
    {kind : StepKind} (unlocks : kind.UnlocksFrom held visit other) :
    Visit.UnlocksTo held
      (do
        Visit.checkpoint
        Visit.moveTo fun context => context.enterStep (kind.name ++ " " ++ id)
        visit)
      (do
        Visit.checkpoint
        Visit.moveTo fun context => context.enterStep (kind.unlocked.name ++ " " ++ id)
        other) := by
  refine .bind .checkpoint fun _ frame otherFrame framesUnlock => ?_
  have entered := framesUnlock.context.enterKind kind id
  refine .moveTo entered.cursor (unlocks _ _ ⟨entered, ?_⟩ fun same => ?_)
  · rw [framesUnlock.same]
  · dsimp only
    rw [same, framesUnlock.context.enterStep, framesUnlock.same]

section Syntax

variable (setting : Setting)

mutual

theorem Step.visit_unlocks (held : List String) : (step : Step) → step.LocksApart held →
    (step.visit setting).UnlocksTo held (step.unlocked.visit setting)
  | ⟨id, order, kind⟩, apart => by
      rw [Step.unlocked, Step.visit, Step.visit]
      exact Visit.UnlocksTo.step (kind.visit_unlocks held apart)

theorem StepKind.visit_unlocks (held : List String) : (kind : StepKind) → kind.LocksApart held →
    kind.UnlocksFrom held (kind.visit setting) (kind.unlocked.visit setting)
  | .logger level children, _, frame, _, _, same => by
      rw [same rfl, StepKind.unlocked, StepKind.visit, StepKind.visit, Visit.logger]
      simp only [Visit.logger, loggerLine_eq, Step.texts_allUnlocked]
      exact Visit.UnlocksTo.self _ frame
  | .textMessage message, _, frame, _, _, same => by
      rw [same rfl]
      exact Visit.UnlocksTo.self _ frame
  | .condition ⟨guard, children⟩, apart, _, _, framesUnlock, _ => by
      rw [StepKind.unlocked, Block.unlocked, StepKind.visit, StepKind.visit]
      exact Visit.UnlocksTo.condition guard
        (Visit.UnlocksTo.siblings (Step.visits_unlock held children apart)) _ _ framesUnlock
  | .execution children, apart, _, _, framesUnlock, _ => by
      rw [StepKind.unlocked, StepKind.visit, StepKind.visit]
      exact Visit.UnlocksTo.siblings (Step.visits_unlock held children apart) _ _ framesUnlock
  | .action action, _, frame, _, _, same => by
      rw [same rfl]
      exact Visit.UnlocksTo.self _ frame
  | .assertion assertion, _, frame, _, _, same => by
      rw [same rfl]
      exact Visit.UnlocksTo.self _ frame
  | .loop bounds children, apart, _, _, framesUnlock, _ => by
      rw [StepKind.unlocked, StepKind.visit, StepKind.visit]
      have unlock := Step.visits_unlock held children apart
      exact Visit.Related.loop bounds (fun _ => Visit.UnlocksTo.bindIndex _ _)
        (Visit.UnlocksTo.siblings unlock) _ _ framesUnlock
  | .foreach list element children, apart, _, _, framesUnlock, _ => by
      rw [StepKind.unlocked, StepKind.visit, StepKind.visit]
      exact Visit.UnlocksTo.foreach list element
        (Visit.UnlocksTo.siblings (Step.visits_unlock held children apart)) _ _ framesUnlock
  | .breakLoop conditions, _, frame, _, _, same => by
      rw [same rfl, StepKind.unlocked, StepKind.visit, StepKind.visit, Block.guards_allUnlocked]
      exact Visit.UnlocksTo.self _ frame
  | .lock name timeout children, apart, _, _, framesUnlock, _ => by
      rw [StepKind.unlocked, StepKind.visit, StepKind.visit]
      have unlock := Step.visits_unlock (name :: held) children apart.2
      exact Visit.UnlocksTo.lock apart.1 _ (Visit.UnlocksTo.siblings unlock) _ _ framesUnlock
  | .propertyAction action, _, frame, _, _, same => by
      rw [same rfl]
      exact Visit.UnlocksTo.self _ frame
  | .script script, apart, _, _, framesUnlock, _ => by
      have sameName : script.unlocked.name = script.name := by
        rcases script with ⟨id, name, order, steps⟩
        rfl
      rw [StepKind.unlocked, StepKind.visit, StepKind.visit, sameName]
      exact Visit.UnlocksTo.embed script.name
        (fun _ _ contextsUnlock => script.run_unlocks held apart contextsUnlock) _ _ framesUnlock
  | .function function, _, frame, _, _, same => by
      rw [same rfl]
      exact Visit.UnlocksTo.self _ frame

theorem Step.visits_unlock (held : List String) : (steps : List Step) →
    Step.AllLocksApart held steps →
      List.Forall₂ (fun step other => step.1 = other.1 ∧ step.2.UnlocksTo held other.2)
        (Step.visits setting steps) (Step.visits setting (Step.allUnlocked steps))
  | [], _ => .nil
  | ⟨id, order, kind⟩ :: rest, apart => by
      rw [Step.allUnlocked, Step.visits, Step.visits]
      exact .cons ⟨rfl, Step.visit_unlocks held _ apart.1⟩ (Step.visits_unlock held rest apart.2)

/-- A run of a script is one of the script without locks, as long as all locks are granted. -/
theorem Script.run_unlocks (held : List String) : (script : Script) → script.LocksApart held →
    ∀ {context other : Context}, context.UnlocksTo other →
      (script.run setting context).UnlocksTo ScriptRun.UnlocksTo held held
        (script.unlocked.run setting other)
  | ⟨id, name, order, steps⟩, apart, _, _, contextsUnlock => by
      rw [Script.unlocked, Script.run, Script.run]
      exact Visit.UnlocksTo.runScript id name
        (Visit.UnlocksTo.siblings (Step.visits_unlock held steps apart)) contextsUnlock

end

/-! ### Runs without locks -/

/-- The protocol of programs that have nothing to do with locks. -/
def sparing : Protocol Unit where
  allows _ request := request.isLocking = false
  after _ _ _ := ()

def Program.SparesLocks (program : Program α) : Prop := program.Obeys sparing () fun _ _ => True

def Visit.SparesLocks (visit : Visit α) : Prop := ∀ frame, (visit.run.run frame).SparesLocks

namespace Visit

theorem sparesLocks_composes : Composes fun _ visit => visit.SparesLocks where
  pure _ _ := trivial
  abort _ _ := trivial
  bind first rest := by
    intro frame
    refine Program.obeys_bind.mpr ((first frame).imp ?_)
    rintro ⟨reason | value, reached⟩ _ _
    · trivial
    · exact rest value reached
  frame _ := trivial
  modify _ _ := trivial
  ask _ aside _ := ⟨aside, fun _ => trivial⟩
  attempt tried := fun frame => Program.obeys_bind.mpr ((tried frame).imp fun _ _ _ => trivial)

theorem sparesLocks_inherits : InheritsCalls fun _ visit => visit.SparesLocks :=
  sparesLocks_composes.inherits

theorem SparesLocks.siblings {steps : List (UInt32 × Visit Flow)}
    (spare : ∀ step ∈ steps, step.2.SparesLocks) : (Visit.siblings steps).SparesLocks := by
  refine sparesLocks_inherits.sequence fun step stepMem => ?_
  rcases List.mem_map.mp stepMem with ⟨ordered, orderedMem, rfl⟩
  exact spare ordered ((inOrder_perm Prod.fst steps).mem_iff.mp orderedMem)

theorem SparesLocks.runScript {body : Visit Flow} (spares : body.SparesLocks) (id name : String)
    (context : Context) : (Visit.runScript id name body context).SparesLocks := by
  have visits : SparesLocks (do moveTo fun context => context.enterScript name; body) :=
    sparesLocks_composes.bind (sparesLocks_composes.moveTo _) fun _ => spares
  refine Program.obeys_ask.mpr ⟨rfl, fun start => ?_⟩
  refine Program.obeys_bind.mpr ((visits ⟨context, [], []⟩).imp ?_)
  rintro ⟨outcome, frame⟩ _ _
  rcases outcome with (_ | _ | error) | flow
  · exact ⟨rfl, fun _ => trivial⟩
  · trivial
  · exact ⟨rfl, fun _ => trivial⟩
  · exact ⟨rfl, fun _ => trivial⟩

end Visit

mutual

theorem Step.unlocked_sparesLocks : (step : Step) → (step.unlocked.visit setting).SparesLocks
  | ⟨id, order, kind⟩ => by
      rw [Step.unlocked, Step.visit]
      refine Visit.sparesLocks_composes.bind Visit.sparesLocks_inherits.checkpoint fun _ => ?_
      exact Visit.sparesLocks_composes.bind (Visit.sparesLocks_composes.moveTo _) fun _ =>
        kind.unlocked_sparesLocks

theorem StepKind.unlocked_sparesLocks : (kind : StepKind) →
    (kind.unlocked.visit setting).SparesLocks
  | .logger level children => by
      rw [StepKind.unlocked, StepKind.visit]
      exact Visit.sparesLocks_inherits.logger level _
  | .textMessage message => by
      rw [StepKind.unlocked, StepKind.visit]
      exact Visit.sparesLocks_inherits.textMessage message
  | .condition ⟨guard, children⟩ => by
      rw [StepKind.unlocked, Block.unlocked, StepKind.visit]
      exact Visit.sparesLocks_inherits.condition guard (.siblings (Step.visits_spareLocks children))
  | .execution children => by
      rw [StepKind.unlocked, StepKind.visit]
      exact .siblings (Step.visits_spareLocks children)
  | .action action => by
      rw [StepKind.unlocked, StepKind.visit]
      exact Visit.sparesLocks_inherits.action setting action
  | .assertion assertion => by
      rw [StepKind.unlocked, StepKind.visit]
      exact Visit.sparesLocks_inherits.assertion setting assertion
  | .loop bounds children => by
      rw [StepKind.unlocked, StepKind.visit]
      exact Visit.sparesLocks_inherits.loop bounds (.siblings (Step.visits_spareLocks children))
  | .foreach list element children => by
      rw [StepKind.unlocked, StepKind.visit]
      exact Visit.sparesLocks_inherits.foreach list element
        (.siblings (Step.visits_spareLocks children))
  | .breakLoop conditions => by
      rw [StepKind.unlocked, StepKind.visit]
      exact Visit.sparesLocks_inherits.breakLoop _
  | .lock name timeout children => by
      rw [StepKind.unlocked, StepKind.visit]
      exact .siblings (Step.visits_spareLocks children)
  | .propertyAction action => by
      rw [StepKind.unlocked, StepKind.visit]
      exact Visit.sparesLocks_inherits.propertyAction action
  | .script script => by
      rw [StepKind.unlocked, StepKind.visit]
      refine Visit.sparesLocks_composes.embed _ fun context frame => ?_
      have lifted : Visit.Obeys sparing (ExceptT.lift (StateT.lift
          (script.unlocked.run setting context))) frame () fun _ _ _ => True :=
        Visit.obeys_lift.mpr (script.unlocked_sparesLocks context)
      exact lifted
  | .function function => by
      rw [StepKind.unlocked, StepKind.visit]
      exact Visit.sparesLocks_inherits.function setting function

theorem Step.visits_spareLocks : (steps : List Step) →
    ∀ step ∈ Step.visits setting (Step.allUnlocked steps), step.2.SparesLocks
  | [] => by simp [Step.allUnlocked, Step.visits]
  | step :: rest => by
      rw [Step.allUnlocked, Step.visits, List.forall_mem_cons]
      exact ⟨step.unlocked_sparesLocks, Step.visits_spareLocks rest⟩

theorem Script.unlocked_sparesLocks : (script : Script) → (context : Context) →
    (script.unlocked.run setting context).SparesLocks
  | ⟨id, name, order, steps⟩, context => by
      rw [Script.unlocked, Script.run]
      exact Visit.SparesLocks.runScript (.siblings (Step.visits_spareLocks steps)) id name context

end

end Syntax

end TestEngine
