import TestEngine.Proofs.Walk.Completeness
import TestEngine.Proofs.Walk.Flags

/-!
# Walking a configuration again

A configuration that a walk has handed back is walked as it was the first time. The two walks may
hand different elements back, so they are compared by what they ask for and by what they tell
otherwise: programs match if they make the same requests and end with values that match.
-/

namespace TestEngine

variable {α β : Type} {setting : Setting} {isTop : Bool} {element : Element}

/-! ### Programs -/

/-- Programs that make the same requests and end with values that a relation holds of. -/
inductive Program.Matches (same : α → β → Prop) : Program α → Program β → Prop
  | done {value : α} {other : β} (sameValue : same value other) :
      Matches same (.done value) (.done other)
  | ask {request : Request} {next : request.Answer → Program α}
      {otherNext : request.Answer → Program β}
      (goesOn : ∀ answer, Matches same (next answer) (otherNext answer)) :
      Matches same (.ask request next) (.ask request otherNext)

namespace Program.Matches

theorem refl {same : α → α → Prop} (reflexive : ∀ value, same value value)
    (program : Program α) : program.Matches same program := by
  induction program with
  | done value => exact .done (reflexive value)
  | ask request next ih => exact .ask ih

theorem pure {same : α → β → Prop} {value : α} {other : β} (sameValue : same value other) :
    (Pure.pure value : Program α).Matches same (Pure.pure other) := .done sameValue

theorem request {same : α → β → Prop} {request : Request} {next : request.Answer → Program α}
    {otherNext : request.Answer → Program β}
    (goesOn : ∀ answer, (next answer).Matches same (otherNext answer)) :
    (Program.request request >>= next).Matches same (Program.request request >>= otherNext) :=
  .ask goesOn

theorem bind {γ δ : Type} {relation : α → β → Prop} {same : γ → δ → Prop} {program : Program α}
    {other : Program β} {next : α → Program γ} {otherNext : β → Program δ}
    (first : program.Matches relation other)
    (goesOn : ∀ value otherValue, relation value otherValue →
      (next value).Matches same (otherNext otherValue)) :
    (program >>= next).Matches same (other >>= otherNext) := by
  change (program.bind next).Matches same (other.bind otherNext)
  induction first with
  | done sameValue => exact goesOn _ _ sameValue
  | ask _ ih => exact .ask ih

/-- What comes after a program matches itself if it matches whatever the value is. -/
theorem behind {same : α → β → Prop} {γ : Type} (program : Program γ) {next : γ → Program α}
    {otherNext : γ → Program β} (goesOn : ∀ value, (next value).Matches same (otherNext value)) :
    (program >>= next).Matches same (program >>= otherNext) :=
  bind (refl (fun _ => Eq.refl _) program) (by rintro value _ rfl; exact goesOn value)

theorem imp {same weaker : α → β → Prop} {program : Program α} {other : Program β}
    (match_ : program.Matches same other)
    (weakens : ∀ value otherValue, same value otherValue → weaker value otherValue) :
    program.Matches weaker other := by
  induction match_ with
  | done sameValue => exact .done (weakens _ _ sameValue)
  | ask _ ih => exact .ask ih

theorem eq {program other : Program α} (match_ : program.Matches Eq other) :
    program = other := by
  induction match_ with
  | done sameValue => exact congrArg _ sameValue
  | ask _ ih => exact congrArg _ (funext ih)

end Program.Matches

/-! ### Visits -/

/-- Visits of elements that leave the same result behind, and end in the same way. -/
structure ElementRun.Matches (ran other : ElementRun) : Prop where
  result : ran.result = other.result
  ending : ran.ending = other.ending
  context : ran.context = other.context

structure LevelRun.Matches (level other : LevelRun) : Prop where
  results : level.results = other.results
  ending : level.ending = other.ending
  context : level.context = other.context

structure ConfigurationRun.Matches (ran other : ConfigurationRun) : Prop where
  results : ran.results = other.results
  ending : ran.ending = other.ending
  context : ran.context = other.context

def ElementVisit.Matches (visit other : ElementVisit) : Prop :=
  ∀ site context, (visit site context).Matches ElementRun.Matches (other site context)

structure Visitor.Matches (visitor other : Visitor) : Prop where
  order : visitor.order = other.order
  visit : ElementVisit.Matches visitor.visit other.visit

theorem settleElement_matches (site : Site) {element after : Element} (context : Context)
    (judge : ElementResult → ElementResult) (schema : Option Schema)
    (sameResult : ∀ start, ElementResult.ofElement element schema start =
      ElementResult.ofElement after schema start) :
    (settleElement site element context judge schema).Matches ElementRun.Matches
      (settleElement site after context judge schema) := by
  refine .request fun start => .request fun stop => ?_
  rw [sameResult start]
  exact .request fun _ => .pure ⟨rfl, rfl, rfl⟩

theorem closeElement_matches (site : Site) (element after : Element) (result : ElementResult)
    (ending : Ending) (context : Context) :
    (closeElement site element result ending context).Matches ElementRun.Matches
      (closeElement site after result ending context) := by
  cases ending with
  | crashed => exact .pure ⟨rfl, rfl, rfl⟩
  | completed => exact .request fun _ => .request fun _ => .pure ⟨rfl, rfl, rfl⟩
  | interrupted => exact .request fun _ => .request fun _ => .pure ⟨rfl, rfl, rfl⟩

/-- Levels match whose visitors do, whatever becomes of the elements. -/
theorem walkLevel_matches {visitors others : List Visitor} (site : Site)
    (elements afters : List Element) (context : Context)
    (visits : List.Forall₂ Visitor.Matches visitors others) :
    (walkLevel site visitors elements context).Matches LevelRun.Matches
      (walkLevel site others afters context) := by
  induction visits generalizing site elements afters context with
  | nil => exact .pure ⟨rfl, rfl, rfl⟩
  | cons first _ ih =>
      refine .bind (first.visit site context) ?_
      rintro ⟨element, result, ending, ranContext⟩ ⟨after, _, _, _⟩ ⟨rfl, rfl, rfl⟩
      cases ending with
      | completed => exact ih ..
      | interrupted => exact .pure ⟨rfl, rfl, rfl⟩
      | crashed => exact .pure ⟨rfl, rfl, rfl⟩

section Element

variable {children others : List Visitor} {skip : Bool} {afters : List Element}

theorem runElement_matches (setting : Setting) (site : Site) (element : Element) (schema : Schema)
    (context : Context) (visits : List.Forall₂ Visitor.Matches children others)
    (sameLeaf : element.children.isEmpty = afters.isEmpty) :
    (runElement setting site element schema children context).Matches ElementRun.Matches
      (runElement setting site { element with skip, children := afters } schema others
        context) := by
  have sameManual : element.isManualLeaf =
      Element.isManualLeaf { element with skip, children := afters } := by
    simp only [Element.isManualLeaf, sameLeaf]
  simp only [runElement, ← sameManual]
  refine .request fun start => .request fun _ => ?_
  split
  · exact .behind _ fun _ => closeElement_matches ..
  · refine .behind _ fun ran => ?_
    split
    · exact closeElement_matches ..
    · have sorted := forall₂_inOrder (fun _ _ visit => visit.order) visits
      refine .bind (walkLevel_matches _ _ _ _ sorted) ?_
      rintro ⟨_, results, ending, levelContext⟩ ⟨_, _, _, _⟩ ⟨rfl, rfl, rfl⟩
      exact closeElement_matches ..

theorem visitElement_matches (setting : Setting) (element : Element)
    (visits : List.Forall₂ Visitor.Matches children others)
    (sameLeaf : element.children.isEmpty = afters.isEmpty)
    (sameSkip : ∀ schema, element.schema = some schema →
      (schema.skippable && element.skip) = (schema.skippable && skip)) :
    ElementVisit.Matches (visitElement setting element children)
      (visitElement setting { element with skip, children := afters } others) := by
  intro site context
  refine .request fun goesOn => ?_
  cases goesOn with
  | false => exact .pure ⟨rfl, rfl, rfl⟩
  | true =>
      rw [if_neg (by decide), if_neg (by decide)]
      cases hasSchema : element.schema with
      | none => exact settleElement_matches _ _ _ _ fun _ => rfl
      | some schema =>
          dsimp only
          rw [sameSkip schema hasSchema]
          split
          · exact settleElement_matches _ _ _ _ fun _ => rfl
          · -- The dependency check reads neither the flag nor the children.
            have sameFailure : dependencyFailure { element with skip, children := afters } schema
                site.isTop site.siblings =
                  dependencyFailure element schema site.isTop site.siblings := rfl
            rw [hasSchema] at sameFailure
            rw [sameFailure]
            split
            · exact settleElement_matches _ _ _ _ fun _ => rfl
            · rw [← hasSchema]
              exact runElement_matches setting site element schema context visits sameLeaf

end Element

theorem ElementRun.Matches.refl (ran : ElementRun) : ran.Matches ran := ⟨rfl, rfl, rfl⟩

theorem Visitor.Matches.refl (visitor : Visitor) : visitor.Matches visitor :=
  ⟨rfl, fun _ _ => .refl ElementRun.Matches.refl _⟩

/-! ### Cleared flags -/

mutual

/-- A flag that a walk clears has no say in how its element is visited. -/
theorem Element.Clears.visit_matches (setting : Setting) {isTop : Bool} {element after : Element} :
    element.Clears isTop after → ElementVisit.Matches (element.visit setting) (after.visit setting)
  | .kept children_clear => by
      rw [Element.visit_eq, Element.visit_eq]
      exact visitElement_matches setting element (children_clear.visitors_match setting 0)
        children_clear.isEmpty_eq fun _ _ => rfl
  | .cleared exposed => by
      rw [Element.visit_eq, Element.visit_eq]
      refine visitElement_matches setting element
        (List.forall₂_same.mpr fun visitor _ => .refl visitor) rfl fun schema hasSchema => ?_
      obtain rfl := Option.some.inj (exposed.hasSchema.symm.trans hasSchema)
      rw [exposed.notSkippable, Bool.false_and, Bool.false_and]

theorem Element.AllClear.visitors_match (setting : Setting) {isTop : Bool}
    {elements afters : List Element} (place : Nat) :
    Element.AllClear isTop elements afters →
      List.Forall₂ Visitor.Matches (Element.visitors setting place elements)
        (Element.visitors setting place afters)
  | .nil => by
      rw [Element.visitors]
      exact .nil
  | .cons first_clears rest_clear => by
      rw [Element.visitors, Element.visitors]
      exact .cons ⟨first_clears.order_eq.symm, first_clears.visit_matches setting⟩
        (rest_clear.visitors_match setting (place + 1))

end

theorem Configuration.Clears.run_matches {configuration after : Configuration}
    (clears : configuration.Clears after) (setting : Setting) (context : Context) :
    (configuration.run setting context).Matches ConfigurationRun.Matches
      (after.run setting context) := by
  cases clears with
  | elements elements_clear =>
      refine .request fun goesOn => ?_
      cases goesOn with
      | false => exact .pure ⟨rfl, rfl, rfl⟩
      | true =>
          refine .request fun _ => .bind (walkLevel_matches .top _ _ _ ?_) ?_
          · exact forall₂_inOrder (fun _ _ visit => visit.order)
              (elements_clear.visitors_match setting 0)
          · rintro level other ⟨results, ending, context⟩
            exact .pure ⟨results, ending, context⟩

theorem Configuration.Clears.runJob_eq {configuration after : Configuration}
    (clears : configuration.Clears after) (setting : Setting) (context : Context) :
    after.runJob setting context = configuration.runJob setting context := by
  refine (Program.Matches.eq (.request fun begun => ?_)).symm
  cases begun with
  | some status => exact .pure rfl
  | none =>
      refine .bind (clears.run_matches setting context) fun ran other match_ => ?_
      rw [match_.ending]
      exact .refl (fun _ => rfl) _

/-! ### Walks -/

/-- What a walk of a configuration makes of it. -/
structure ConfigurationRun.HandsBack (setting : Setting) (configuration : Configuration)
    (ran : ConfigurationRun) : Prop where
  clears : configuration.Clears ran.configuration
  same : (∀ inner, configuration.HasBelowTop inner → ∀ schema, ¬inner.IsExposed false schema) →
    ran.configuration = configuration
  /-- Which flags a walk clears follows from the visits. -/
  flag (element : Element) (site : Site) (context : Context) :
    (element.visit setting site context).Always fun ran =>
      ran.element.skip = (element.skip && !(ran.result.isSome && element.isHeldBack site))
  again (setting : Setting) (context : Context) :
    (configuration.run setting context).Matches ConfigurationRun.Matches
      (ran.configuration.run setting context)
  asJob (setting : Setting) (context : Context) :
    ran.configuration.runJob setting context = configuration.runJob setting context

/-- A configuration of an element with two below it. The author has set the skip flag of the one
that is visited last, whose schema goes by its dependencies only, and nothing says how to visit the
other one. -/
def Configuration.flagged : Configuration where
  id := "c"
  name := "Flagged"
  environment := none
  release := none
  elements :=
    [⟨"p", "P", 1, .automatic, false,
      [⟨"y", "Y", 2, .automatic, true, [], [], [], [],
          some ⟨"s", "S", 1, .many, false, true, .predecessor, false⟩⟩,
        ⟨"x", "X", 1, .automatic, false, [], [], [], [], none⟩],
      [], [], [], some ⟨"s", "S", 0, .many, false, false, .predecessor, false⟩⟩]

namespace Machine

variable {ω : Type} {configuration : Configuration} {context : Context} {place call : Nat}
  {isJob : Program ConfigurationRun → Prop} {mayReject : Session → Prop}
  {first last : Machine ω ConfigurationRun} {trace : List Asked}

/-- A walk clears only the flags that are exposed, and only of the elements that it skips for the
sake of their dependencies; whoever walks the configuration again notices nothing of it. -/
theorem Course.walk_hands_back {session : Session}
    (hasSession : (first.view place).session = some session)
    (ready : (first.view place).stages call = some (.ready (configuration.run setting context)))
    (course : Course place isJob mayReject first trace last) {ran : ConfigurationRun}
    (returned : (last.view place).stages call = some (.done ran)) :
    ran.HandsBack setting configuration := by
  have clears := course.always hasSession ready (configuration.run_clears setting context) returned
  exact ⟨clears, clears.eq, fun element site context => element.visit_flag setting site context,
    clears.run_matches, clears.runJob_eq⟩

/-- A machine of its own for the walk of the flagged configuration. -/
def flagged : Machine Unit ConfigurationRun :=
  ((Machine.initial .empty (.initial 0 .empty ())).openSession .unattended).1.spawn 0
    (Configuration.flagged.run .sample (.ofProperties []))

theorem flagged_returns :
    ∃ trace last ran, Course 0 (fun _ => False) (fun _ => False) flagged trace last ∧
      (last.view 0).stages 0 = some (.done ran) ∧ ran.ending = .completed ∧
        ran.configuration.skipFlags = [("p", false), ("y", false), ("x", false)] := by
  have course : Course 0 (fun _ => False) (fun _ => False) flagged _ (flagged.poll 0) :=
    .step .start (.poll rfl)
  have ends : (((flagged.poll 0).view 0).stages 0).any fun stage => stage.value?.any fun ran =>
      ran.ending = .completed ∧
        ran.configuration.skipFlags = [("p", false), ("y", false), ("x", false)] := by
    decide +kernel
  rcases (Option.any_eq_true _ _).mp ends with ⟨stage, hasStage, ended⟩
  rcases (Option.any_eq_true _ _).mp ended with ⟨ran, hasValue, holds⟩
  have returned : (((flagged.poll 0).view 0).stages 0).bind Stage.value? = some ran := by
    rw [hasStage]
    exact hasValue
  exact ⟨_, _, ran, course, view_stages_eq_done.mpr returned, of_decide_eq_true holds⟩

/-- The walk of the flagged configuration hands it back so that it can be walked again. -/
theorem flagged_walk_hands_back :
    ∃ last : Machine Unit ConfigurationRun, ∃ ran, (last.view 0).stages 0 = some (.done ran) ∧
      ran.HandsBack .sample Configuration.flagged := by
  rcases flagged_returns with ⟨trace, last, ran, course, returned, -⟩
  exact ⟨last, ran, returned, Course.walk_hands_back rfl rfl course returned⟩

/-- The flag that its author has set is lost. -/
theorem flagged_walk_loses_flag :
    ∃ trace last ran, Course 0 (fun _ => False) (fun _ => False) flagged trace last ∧
      (last.view 0).stages 0 = some (.done ran) ∧ ran.ending = .completed ∧
        ran.configuration ≠ Configuration.flagged := by
  rcases flagged_returns with ⟨trace, last, ran, course, returned, completed, flags⟩
  refine ⟨trace, last, ran, course, returned, completed, fun same => ?_⟩
  rw [same] at flags
  exact absurd flags (by decide)

end Machine

end TestEngine
