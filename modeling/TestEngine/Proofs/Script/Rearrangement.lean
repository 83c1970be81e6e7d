import TestEngine.Proofs.Order
import TestEngine.Proofs.Script.Relined

/-!
# Scripts that are listed in another order

A list of siblings whose orders are distinct may be written down in any order: the steps are visited
by their `order`. The texts of a logger are the exception, since they are joined as they are listed.
So a script that is listed in another way asks the same of its surroundings and comes to the same,
but for the order of the parts in the lines of its loggers; and it is the very same program if each
logger lists its texts as before.
-/

namespace TestEngine

/-! ### Siblings of distinct orders -/

mutual

/-- The siblings in every list inside a step have distinct orders, at every depth. What a guard of
a break holds is never looked at. -/
def Step.Distinct : Step → Prop
  | ⟨_, _, kind⟩ => kind.Distinct

def StepKind.Distinct : StepKind → Prop
  | .condition ⟨_, children⟩ => Step.AllDistinct children
  | .execution children => Step.AllDistinct children
  | .loop _ children => Step.AllDistinct children
  | .foreach _ _ children => Step.AllDistinct children
  | .lock _ _ children => Step.AllDistinct children
  | .script script => script.Distinct
  | .logger _ children => Step.AllDistinct children
  | .textMessage _ => True
  | .action _ => True
  | .assertion _ => True
  | .breakLoop _ => True
  | .propertyAction _ => True
  | .function _ => True

def Step.AllDistinct : List Step → Prop
  | [] => True
  | step :: rest => step.Distinct ∧ step.order ∉ rest.map Step.order ∧ Step.AllDistinct rest

def Script.Distinct : Script → Prop
  | ⟨_, _, _, steps⟩ => Step.AllDistinct steps

end

theorem Step.AllDistinct.nodup {steps : List Step} (distinct : AllDistinct steps) :
    (steps.map Step.order).Nodup := by
  induction steps with
  | nil => exact .nil
  | cons step rest ih =>
      rw [AllDistinct] at distinct
      exact .cons distinct.2.1 (ih distinct.2.2)

/-! ### Listing siblings in another order -/

/-- The text messages among the children of a logger, as they are listed. -/
def Step.texts (children : List Step) : List TextMessage :=
  children.filterMap fun child =>
    match child.kind with
    | .textMessage message => some message
    | _ => none

mutual

/-- Scripts of which one is the other with the siblings of every list, at every depth, in any order,
where what the one and the other list as the texts of a logger is in a relation. -/
inductive Script.Rearranges (kept : List TextMessage → List TextMessage → Prop) :
    Script → Script → Prop
  | siblings {id name : String} {order : UInt32} {steps others : List Step}
      (steps_rearrange : Step.AllRearrange kept steps others) :
      Script.Rearranges kept ⟨id, name, order, steps⟩ ⟨id, name, order, others⟩

inductive Step.Rearranges (kept : List TextMessage → List TextMessage → Prop) :
    Step → Step → Prop
  | inside {id : String} {order : UInt32} {kind other : StepKind}
      (kind_rearranges : StepKind.Rearranges kept kind other) :
      Step.Rearranges kept ⟨id, order, kind⟩ ⟨id, order, other⟩

inductive StepKind.Rearranges (kept : List TextMessage → List TextMessage → Prop) :
    StepKind → StepKind → Prop
  | textMessage (message : TextMessage) :
      StepKind.Rearranges kept (.textMessage message) (.textMessage message)
  | action (action : Action) : StepKind.Rearranges kept (.action action) (.action action)
  | assertion (assertion : Assertion) :
      StepKind.Rearranges kept (.assertion assertion) (.assertion assertion)
  | propertyAction (action : PropertyAction) :
      StepKind.Rearranges kept (.propertyAction action) (.propertyAction action)
  | function (function : Function) :
      StepKind.Rearranges kept (.function function) (.function function)
  | logger (level : LogLevel) {children others : List Step}
      (children_rearrange : Step.AllRearrange kept children others)
      (texts_kept : kept (Step.texts children) (Step.texts others)) :
      StepKind.Rearranges kept (.logger level children) (.logger level others)
  | condition (guard : Guard) {children others : List Step}
      (children_rearrange : Step.AllRearrange kept children others) :
      StepKind.Rearranges kept (.condition ⟨guard, children⟩) (.condition ⟨guard, others⟩)
  | execution {children others : List Step}
      (children_rearrange : Step.AllRearrange kept children others) :
      StepKind.Rearranges kept (.execution children) (.execution others)
  | loop (bounds : LoopBounds) {children others : List Step}
      (children_rearrange : Step.AllRearrange kept children others) :
      StepKind.Rearranges kept (.loop bounds children) (.loop bounds others)
  | foreach (list element : String) {children others : List Step}
      (children_rearrange : Step.AllRearrange kept children others) :
      StepKind.Rearranges kept (.foreach list element children) (.foreach list element others)
  /-- Nothing but the guards of a break is read. -/
  | breakLoop {conditions others : List Block}
      (sameGuards : conditions.map Block.guard = others.map Block.guard) :
      StepKind.Rearranges kept (.breakLoop conditions) (.breakLoop others)
  | lock (name : String) (timeout : Option UInt64) {children others : List Step}
      (children_rearrange : Step.AllRearrange kept children others) :
      StepKind.Rearranges kept (.lock name timeout children) (.lock name timeout others)
  | script {script other : Script} (script_rearranges : Script.Rearranges kept script other) :
      StepKind.Rearranges kept (.script script) (.script other)

/-- Each step of a list stands at any place in the other one. -/
inductive Step.AllRearrange (kept : List TextMessage → List TextMessage → Prop) :
    List Step → List Step → Prop
  | nil : Step.AllRearrange kept [] []
  | insert {step other : Step} {steps before after : List Step}
      (step_rearranges : Step.Rearranges kept step other)
      (steps_rearrange : Step.AllRearrange kept steps (before ++ after)) :
      Step.AllRearrange kept (step :: steps) (before ++ other :: after)

end

/-- The same script with every list of siblings in any order. -/
def Script.Permutes (script other : Script) : Prop := script.Rearranges (fun _ _ => True) other

/-- The same script with every list of siblings in any order in which each logger lists its texts
as before. -/
def Script.PermutesButTexts (script other : Script) : Prop := script.Rearranges Eq other

section Rearranges

variable {kept : List TextMessage → List TextMessage → Prop}

theorem Script.Rearranges.name {script other : Script} (rearranges : script.Rearranges kept other) :
    script.name = other.name := by
  cases rearranges with
  | siblings => rfl

theorem Step.Rearranges.order {step other : Step} (rearranges : step.Rearranges kept other) :
    step.order = other.order := by
  cases rearranges with
  | inside => rfl

theorem StepKind.Rearranges.name {kind other : StepKind} (rearranges : kind.Rearranges kept other) :
    kind.name = other.name := by
  cases rearranges <;> rfl

theorem Step.Rearranges.texts {step other : Step} (rearranges : step.Rearranges kept other) :
    Step.texts [step] = Step.texts [other] := by
  cases rearranges with
  | inside kind_rearranges => cases kind_rearranges <;> rfl

theorem Step.texts_append (children later : List Step) :
    texts (children ++ later) = texts children ++ texts later := List.filterMap_append

/-- A logger that lists its children in another order has the same texts. -/
theorem Step.AllRearrange.texts_perm {children others : List Step}
    (rearrange : AllRearrange kept children others) :
    (texts children).Perm (texts others) := by
  induction children generalizing others with
  | nil =>
      cases rearrange
      exact .refl _
  | cons child rest ih =>
      cases rearrange with
      | @insert _ other _ before after child_rearranges rest_rearrange =>
          have restPerm := ih rest_rearrange
          rw [texts_append] at restPerm
          change (texts ([child] ++ rest)).Perm (texts (before ++ ([other] ++ after)))
          rw [texts_append, texts_append, texts_append, child_rearranges.texts]
          exact (restPerm.append_left _).trans (List.perm_append_comm_assoc _ _ _)

end Rearranges

/-! ### The lines of loggers -/

/-- Messages that are made of the same parts. -/
def SameParts (message other : String) : Prop :=
  ∃ parts otherParts : List String, parts.Perm otherParts ∧ message = " ".intercalate parts ∧
    other = " ".intercalate otherParts

theorem SameParts.refl (message : String) : SameParts message message :=
  ⟨[message], [message], .refl _, rfl, rfl⟩

theorem loggerLine_eq (children : List Step) (store : Store) :
    loggerLine children store = " ".intercalate
      (((Step.texts children).map fun message => message.render store).filter (· ≠ "")) := by
  rw [loggerLine, Step.texts, List.map_filterMap]
  refine congrArg (fun parts => " ".intercalate (List.filter _ parts)) (List.filterMap_congr ?_)
  intro child _
  cases child.kind <;> rfl

theorem sameParts_loggerLine {children others : List Step}
    (sameTexts : (Step.texts children).Perm (Step.texts others)) (store : Store) :
    SameParts (loggerLine children store) (loggerLine others store) :=
  ⟨_, _, (sameTexts.map _).filter _, loggerLine_eq children store, loggerLine_eq others store⟩

/-! ### Programs -/

section Programs

variable {kept : List TextMessage → List TextMessage → Prop} {lines : String → String → Prop}

/-- Each of the visits of siblings has a counterpart of the same order among others, which differs
from it in lines at most. -/
def Visit.HaveCounterparts (lines : String → String → Prop)
    (siblings others : List (UInt32 × Visit Flow)) : Prop :=
  ∃ counterparts, counterparts.Perm others ∧
    List.Forall₂ (fun sibling other => sibling.1 = other.1 ∧ sibling.2.Relined lines other.2)
      siblings counterparts

theorem Visit.HaveCounterparts.insert {sibling other : UInt32 × Visit Flow}
    {siblings before after : List (UInt32 × Visit Flow)} (sameOrder : sibling.1 = other.1)
    (relined : sibling.2.Relined lines other.2)
    (others : HaveCounterparts lines siblings (before ++ after)) :
    HaveCounterparts lines (sibling :: siblings) (before ++ other :: after) := by
  rcases others with ⟨counterparts, perm, allRelined⟩
  exact ⟨other :: counterparts, (perm.cons other).trans List.perm_middle.symm,
    .cons ⟨sameOrder, relined⟩ allRelined⟩

/-- Siblings of distinct orders are visited like their counterparts, wherever those stand. -/
theorem Visit.HaveCounterparts.siblings_relined {siblings others : List (UInt32 × Visit Flow)}
    (distinct : (siblings.map Prod.fst).Nodup)
    (haveOthers : HaveCounterparts lines siblings others) :
    (Visit.siblings siblings).Relined lines (Visit.siblings others) := by
  rcases haveOthers with ⟨counterparts, perm, relined⟩
  have sameOrders : siblings.map Prod.fst = counterparts.map Prod.fst := by
    rw [← List.forall₂_eq_eq_eq, List.forall₂_map_left_iff, List.forall₂_map_right_iff]
    exact relined.imp fun _ _ counterpart => counterpart.1
  rw [sameOrders] at distinct
  rw [Visit.siblings, Visit.siblings, ← inOrder_eq_of_perm distinct perm]
  refine .sequence (List.forall₂_map_left_iff.mpr (List.forall₂_map_right_iff.mpr ?_))
  exact (forall₂_inOrder (fun _ _ counterpart => counterpart.1) relined).imp
    fun _ _ counterpart => counterpart.2

theorem Step.AllDistinct.siblings_relined {setting : Setting} {steps others : List Step}
    (distinct : Step.AllDistinct steps)
    (haveOthers : Visit.HaveCounterparts lines (Step.visits setting steps)
      (Step.visits setting others)) :
    (Visit.siblings (Step.visits setting steps)).Relined lines
      (Visit.siblings (Step.visits setting others)) := by
  refine haveOthers.siblings_relined ?_
  rw [Step.visits_eq_map, List.map_map]
  exact distinct.nodup

/-- Messages that may stand for each other include those of a logger that is listed in another
way. -/
structure StandFor (kept : List TextMessage → List TextMessage → Prop)
    (lines : String → String → Prop) : Prop where
  refl (message : String) : lines message message
  logger {children others : List Step} (rearrange : Step.AllRearrange kept children others)
    (texts_kept : kept (Step.texts children) (Step.texts others)) (store : Store) :
    lines (loggerLine children store) (loggerLine others store)

mutual

theorem Step.Rearranges.visit_relined (setting : Setting)
    (standFor : StandFor kept lines) {step other : Step} :
    step.Rearranges kept other → step.Distinct →
      (step.visit setting).Relined lines (other.visit setting)
  | .inside kind_rearranges, distinct => by
      rw [Step.visit, Step.visit, kind_rearranges.name]
      exact .bind .checkpoint fun _ => .bind (.moveTo _) fun _ =>
        kind_rearranges.visit_relined setting standFor distinct

theorem StepKind.Rearranges.visit_relined (setting : Setting)
    (standFor : StandFor kept lines) {kind other : StepKind} :
    kind.Rearranges kept other → kind.Distinct →
      (kind.visit setting).Relined lines (other.visit setting)
  | .textMessage message, _ => by
      rw [StepKind.visit]
      exact .textMessage standFor.refl message
  | .action action, _ => by
      rw [StepKind.visit]
      exact .action setting action
  | .assertion assertion, _ => by
      rw [StepKind.visit]
      exact .assertion setting assertion
  | .propertyAction action, _ => by
      rw [StepKind.visit]
      exact .propertyAction action
  | .function function, _ => by
      rw [StepKind.visit]
      exact .function standFor.refl setting function
  | .logger level children_rearrange texts_kept, _ => by
      rw [StepKind.visit, StepKind.visit]
      exact .logger level (standFor.logger children_rearrange texts_kept)
  | .condition guard children_rearrange, distinct => by
      rw [StepKind.visit, StepKind.visit]
      exact .condition guard
        (distinct.siblings_relined (children_rearrange.counterparts setting standFor distinct))
  | .execution children_rearrange, distinct => by
      rw [StepKind.visit, StepKind.visit]
      exact distinct.siblings_relined (children_rearrange.counterparts setting standFor distinct)
  | .loop bounds children_rearrange, distinct => by
      rw [StepKind.visit, StepKind.visit]
      exact .loop bounds
        (distinct.siblings_relined (children_rearrange.counterparts setting standFor distinct))
  | .foreach list element children_rearrange, distinct => by
      rw [StepKind.visit, StepKind.visit]
      exact .foreach list element
        (distinct.siblings_relined (children_rearrange.counterparts setting standFor distinct))
  | .breakLoop sameGuards, _ => by
      rw [StepKind.visit, StepKind.visit, sameGuards]
      exact .breakLoop _
  | .lock name timeout children_rearrange, distinct => by
      rw [StepKind.visit, StepKind.visit]
      exact .lock name _
        (distinct.siblings_relined (children_rearrange.counterparts setting standFor distinct))
  | .script script_rearranges, distinct => by
      rw [StepKind.visit, StepKind.visit, script_rearranges.name]
      exact .embed _ (script_rearranges.run_relined setting standFor distinct)

theorem Step.AllRearrange.counterparts (setting : Setting)
    (standFor : StandFor kept lines) {steps others : List Step} :
    Step.AllRearrange kept steps others → Step.AllDistinct steps →
      Visit.HaveCounterparts lines (Step.visits setting steps) (Step.visits setting others)
  | .nil, _ => ⟨[], .refl _, .nil⟩
  | .insert step_rearranges steps_rearrange, distinct => by
      have others := steps_rearrange.counterparts setting standFor distinct.2.2
      rw [Step.visits_eq_map _ (_ ++ _), List.map_append] at others ⊢
      exact others.insert step_rearranges.order
        (step_rearranges.visit_relined setting standFor distinct.1)

theorem Script.Rearranges.run_relined (setting : Setting)
    (standFor : StandFor kept lines) {script other : Script} :
    script.Rearranges kept other → script.Distinct → ∀ context,
      (script.run setting context).Matches (ScriptRun.Relined lines) (other.run setting context)
  | .siblings steps_rearrange, distinct => by
      rw [Script.run, Script.run]
      exact Visit.runScript_relined _ _
        (Step.AllDistinct.siblings_relined distinct
          (steps_rearrange.counterparts setting standFor distinct))

end

end Programs

/-! ### Runs -/

/-- Surroundings that decide what to answer by what was asked before, as deterministic capabilities
do, whatever the clock and the clients do meanwhile. -/
abbrev Surroundings : Type := (asked : List Request) → (request : Request) → request.Answer

/-- What a program asks in some surroundings, behind what was asked before, and what it ends
with. -/
def Program.play {α : Type} (surroundings : Surroundings) :
    Program α → List Request → List Request × α
  | .done value, asked => (asked, value)
  | .ask request next, asked =>
    (next (surroundings asked request)).play surroundings (asked ++ [request])

theorem Program.Matches.play {α β : Type} {same : α → β → Prop} {program : Program α}
    {other : Program β} (match_ : program.Matches same other) (surroundings : Surroundings)
    (asked : List Request) :
    (program.play surroundings asked).1 = (other.play surroundings asked).1 ∧
      same (program.play surroundings asked).2 (other.play surroundings asked).2 := by
  induction match_ generalizing asked with
  | done sameValue => exact ⟨rfl, sameValue⟩
  | ask _ ih => exact ih _ _

/-- What it comes to that a script is listed in another way. -/
structure Script.ReadsAlike (script other : Script) : Prop where
  requests (setting : Setting) (context : Context) (surroundings : Surroundings) :
    ((script.run setting context).play surroundings []).1 =
      ((other.run setting context).play surroundings []).1
  outcome (setting : Setting) (context : Context) (surroundings : Surroundings) :
    ((script.run setting context).play surroundings []).2.Relined SameParts
      ((other.run setting context).play surroundings []).2
  /-- Nothing differs at all if each logger lists its texts as before. -/
  same (butTexts : script.PermutesButTexts other) (setting : Setting) :
    script.run setting = other.run setting

/-- A script is read by the orders of its steps, and the texts of a logger are read as listed. -/
theorem Script.Permutes.readsAlike {script other : Script} (distinct : script.Distinct)
    (permutes : script.Permutes other) : script.ReadsAlike other := by
  have sameParts : StandFor (fun _ _ => True) SameParts :=
    ⟨.refl, fun rearrange _ => sameParts_loggerLine rearrange.texts_perm⟩
  have sameLine : StandFor Eq Eq := by
    refine ⟨fun _ => rfl, fun _ sameTexts store => ?_⟩
    rw [loggerLine_eq, loggerLine_eq, sameTexts]
  have relined (setting : Setting) (context : Context) (surroundings : Surroundings) :=
    (permutes.run_relined setting sameParts distinct context).play surroundings []
  refine ⟨fun setting context surroundings => (relined setting context surroundings).1,
    fun setting context surroundings => (relined setting context surroundings).2,
    fun butTexts setting => funext fun context => ?_⟩
  have sameRun := butTexts.run_relined setting sameLine distinct context
  exact Program.Matches.eq (sameRun.imp fun _ _ => ScriptRun.Relined.eq)

/-- Surroundings in which nothing happens and time stands still. -/
def Surroundings.quiet : Surroundings
  | _, .checkpoint => true
  | _, .elapsed => 0
  | _, .now => ⟨0, 0⟩
  | _, .acquire .. => .granted
  | _, .perform call => .returned (.ok (.passed call.action))
  | _, .execute _ => ([], .returned (.ok []))
  | _, .verify .. => some (.ok ())
  | _, .awaitInteraction => none
  | _, .beginJob => none
  | _, .endJob _ => .finished
  | _, .sleep _ => ()
  | _, .release _ => ()
  | _, .moveTo _ => ()
  | _, .noteStart => ()
  | _, .publish _ => ()
  | _, .openInteraction => ()
  | _, .cancelRun => ()
  | _, .awaitResume => ()

/-- A script that says hello, listed from the last step to the first one. -/
def Script.greeting : Script :=
  ⟨"s", "Greeting", 1,
    [⟨"all", 2, .execution
        [⟨"bye", 2, .textMessage ⟨"bye", none⟩⟩,
          ⟨"hello", 1, .logger .info
            [⟨"world", 2, .textMessage ⟨"world", none⟩⟩,
              ⟨"hello", 1, .textMessage ⟨"hello", none⟩⟩]⟩]⟩,
      ⟨"start", 1, .textMessage ⟨"start", none⟩⟩]⟩

/-- The same script, listed in the order of its steps. -/
def Script.orderedGreeting : Script :=
  ⟨"s", "Greeting", 1,
    [⟨"start", 1, .textMessage ⟨"start", none⟩⟩,
      ⟨"all", 2, .execution
        [⟨"hello", 1, .logger .info
            [⟨"hello", 1, .textMessage ⟨"hello", none⟩⟩,
              ⟨"world", 2, .textMessage ⟨"world", none⟩⟩]⟩,
          ⟨"bye", 2, .textMessage ⟨"bye", none⟩⟩]⟩]⟩

theorem Script.greeting_distinct : Script.greeting.Distinct := by
  simp [greeting, Distinct, Step.AllDistinct, Step.Distinct, StepKind.Distinct]

/-- Two steps are listed the other way round. -/
theorem Step.AllRearrange.swap {kept : List TextMessage → List TextMessage → Prop}
    {first other second another : Step} (first_rearranges : first.Rearranges kept other)
    (second_rearranges : second.Rearranges kept another) :
    Step.AllRearrange kept [first, second] [another, other] := by
  have alone : Step.AllRearrange kept [second] ([] ++ another :: []) :=
    .insert second_rearranges .nil
  change Step.AllRearrange kept (first :: [second]) ([another] ++ other :: [])
  exact .insert first_rearranges alone

theorem Script.greeting_permutes : Script.greeting.Permutes Script.orderedGreeting :=
  .siblings (.swap
    (.inside (.execution (.swap (.inside (.textMessage _))
      (.inside (.logger .info
        (.swap (.inside (.textMessage _)) (.inside (.textMessage _))) trivial)))))
    (.inside (.textMessage _)))

/-- However the greeting is listed, it asks the same and comes to the same but for its lines. -/
theorem Script.greeting_readsAlike :
    Script.greeting.Distinct ∧ Script.greeting.Permutes Script.orderedGreeting ∧
      Script.greeting.ReadsAlike Script.orderedGreeting :=
  ⟨greeting_distinct, greeting_permutes,
    Script.Permutes.readsAlike greeting_distinct greeting_permutes⟩

/-- The messages of a script's lines in quiet surroundings. -/
def Script.quietMessages (script : Script) : List String :=
  ((script.run .sample (.ofProperties [])).play .quiet []).2.result.log.map LogEntry.message

/-- What a logger writes follows the list of its children and not their orders. -/
theorem Script.greeting_told_by_listing :
    Script.greeting.Distinct ∧ Script.greeting.Permutes Script.orderedGreeting ∧
      Script.greeting.quietMessages = ["start", "world hello", "bye"] ∧
      Script.orderedGreeting.quietMessages = ["start", "hello world", "bye"] :=
  ⟨greeting_distinct, greeting_permutes, by decide +kernel, by decide +kernel⟩

end TestEngine
