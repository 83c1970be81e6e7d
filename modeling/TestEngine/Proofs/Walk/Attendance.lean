import TestEngine.Proofs.Script.Contract
import TestEngine.Proofs.Walk.Flags
import TestEngine.Proofs.Walk.Soundness

/-!
# How a run attends to its tester

The protocol that follows a run by when it says that it waits for a tester. It says so only for a
manual leaf element, right after it has published the result of the element as waiting, and only if
nothing can have interrupted it since its last checkpoint; and having said so, it asks for nothing
else before it waits.
-/

namespace TestEngine

variable {α : Type}

/-! ### Results that wait -/

/-- An element of a configuration, at some depth, of which a tester has to deliver the result. -/
def Configuration.HasLeaf (configuration : Configuration) (leaf : Element) : Prop :=
  leaf.isManualLeaf ∧ ∃ top ∈ configuration.elements, top = leaf ∨ top.Above leaf

/-- Whether a tree holds a result somewhere. -/
def ElementResult.Show (results : List ElementResult) (shown : ElementResult) : Prop :=
  ∃ top ∈ results, top.Holds shown

/-- A tree of results in which some manual leaf element of a configuration is waiting. -/
def Configuration.Awaits (configuration : Configuration) (results : List ElementResult) : Prop :=
  ∃ leaf result, configuration.HasLeaf leaf ∧ ElementResult.Show results result ∧
    result.elementId = leaf.id ∧ result.manual = some .waiting ∧ result.verdict = none

/-! ### The protocol -/

/-- How far a run has come on its way to a tester. -/
inductive Attendance where
  /-- Something may have interrupted the run since its last checkpoint. -/
  | loose
  | clear
  /-- It is clear, and has published results since. -/
  | announced (results : List ElementResult)
  /-- It has said that it waits. -/
  | opened
  /-- It has ended its job. -/
  | closed

namespace Attendance

/-- Whether the run is neither about to wait nor over. -/
def isFree : Attendance → Bool
  | loose | clear | announced _ => true
  | opened | closed => false

/-- Whether nothing can have interrupted the run since its last checkpoint. -/
def isClear : Attendance → Bool
  | clear | announced _ => true
  | loose | opened | closed => false

theorem isFree_of_isClear {attendance : Attendance} (isClear : attendance.isClear) :
    attendance.isFree := by
  cases attendance <;> simp_all [Attendance.isClear, isFree]

def after (attendance : Attendance) : (request : Request) → request.Answer → Attendance
  | .checkpoint, goesOn => if goesOn then clear else loose
  | .now, _ => attendance
  | .publish results, _ => if attendance.isClear then announced results else loose
  | .openInteraction, _ => opened
  | .endJob _, _ => closed
  | _, _ => loose

end Attendance

/-- Whether a request has nothing to do with testers and neither begins nor ends the job. -/
def Request.isPlain : Request → Bool
  | openInteraction | awaitInteraction | beginJob | endJob _ => false
  | _ => true

/-- The protocol of runs that attend to the tester of a configuration. -/
def attending (configuration : Configuration) : Protocol Attendance where
  allows attendance request :=
    match request with
    | .openInteraction =>
        ∃ results, attendance = .announced results ∧ configuration.Awaits results
    | .awaitInteraction => attendance = .opened
    | .beginJob => False
    | _ => attendance.isFree
  after := Attendance.after

variable {configuration : Configuration} {attendance : Attendance}

theorem attending_allows_iff {request : Request} (plain : request.isPlain) :
    (attending configuration).allows attendance request ↔ attendance.isFree := by
  cases request with
  | openInteraction => exact nomatch plain
  | awaitInteraction => exact nomatch plain
  | beginJob => exact nomatch plain
  | endJob ending => exact nomatch plain
  | _ => exact Iff.rfl

theorem Attendance.isFree_after {request : Request} (plain : request.isPlain)
    (isFree : attendance.isFree) (answer : request.Answer) :
    (attendance.after request answer).isFree := by
  cases request with
  | openInteraction => exact nomatch plain
  | awaitInteraction => exact nomatch plain
  | beginJob => exact nomatch plain
  | endJob ending => exact nomatch plain
  | checkpoint =>
      rw [after]
      split <;> rfl
  | now => exact isFree
  | publish results =>
      rw [after]
      split <;> rfl
  | _ => rfl

/-- A program that goes its own way, with no tester to attend to. -/
def Program.GoesFree (configuration : Configuration) (program : Program α) : Prop :=
  ∀ attendance : Attendance, attendance.isFree →
    program.Obeys (attending configuration) attendance fun _ reached => reached.isFree

namespace Program.GoesFree

variable {β : Type}

theorem pure (value : α) : GoesFree configuration (Pure.pure value) := fun _ isFree => isFree

theorem bind {program : Program α} {next : α → Program β}
    (first : program.GoesFree configuration)
    (rest : ∀ value, (next value).GoesFree configuration) :
    GoesFree configuration (program >>= next) := by
  intro attendance isFree
  refine Program.obeys_bind.mpr ((first attendance isFree).imp ?_)
  exact fun value reached stillFree => rest value reached stillFree

theorem request {request : Request} (plain : request.isPlain) :
    (Program.request request).GoesFree configuration :=
  fun _ isFree => ⟨(attending_allows_iff plain).mpr isFree,
    Attendance.isFree_after plain isFree⟩

theorem publish (site : Site) (result : ElementResult) :
    (site.publish result).GoesFree configuration := request rfl

end Program.GoesFree

/-! ### Scripts -/

/-- The protocol of programs that make no requests but those of visits. -/
def visiting : Protocol Unit where
  allows _ request := request.isOfVisit
  after _ _ _ := ()

/-- The contract of visits as far as only their requests matter. -/
def visitsOnly : Contract Unit where
  protocol := visiting
  keeps _ _ _ := True
  refl _ := trivial
  trans _ _ := trivial
  aborts _ _ := trivial
  settles _ _ _ := trivial
  again _ _ _ := trivial
  allows _ _ ofVisit := ofVisit
  answered _ _ _ _ _ _ := trivial
  told _ _ _ _ _ := trivial
  crashed _ _ _ _ _ := trivial
  passes _ _ _ := trivial
  fails _ _ _ _ := trivial
  embeds _ _ _ _ _ _ _ _ := trivial
  crashes _ _ _ _ := trivial

theorem Program.Obeys.goesFree {program : Program α} {condition : α → Unit → Prop}
    (obeys : program.Obeys visiting () condition) : program.GoesFree configuration := by
  induction program with
  | done value => exact .pure value
  | ask request next ih =>
      have plain : request.isPlain := by
        cases request <;> first | rfl | exact nomatch obeys.1
      exact Program.GoesFree.bind (.request plain) fun answer => ih answer (obeys.2 answer)

theorem Script.run_goesFree (setting : Setting) (script : Script) (context : Context) :
    (script.run setting context).GoesFree configuration :=
  (script.run_runs visitsOnly setting context ()).goesFree

/-! ### Elements -/

section Elements

variable {site : Site} {element : Element} {result : ElementResult}

theorem closeElement_goesFree (ending : Ending) (context : Context) :
    (closeElement site element result ending context).GoesFree configuration := by
  cases ending with
  | crashed => exact .pure _
  | completed =>
      exact .bind (.request rfl) fun _ => .bind (.publish site _) fun _ => .pure _
  | interrupted =>
      exact .bind (.request rfl) fun _ => .bind (.publish site _) fun _ => .pure _

theorem settleElement_goesFree (context : Context) (judge : ElementResult → ElementResult)
    (schema : Option Schema) :
    (settleElement site element context judge schema).GoesFree configuration :=
  .bind (.request rfl) fun _ => .bind (.request rfl) fun _ =>
    .bind (.publish site _) fun _ => .pure _

theorem runScripts_goesFree (setting : Setting) (scripts : List Script) (context : Context) :
    (runScripts site (scripts.map fun script => script.run setting) result context).GoesFree
      configuration := by
  induction scripts generalizing result context with
  | nil => exact .pure _
  | cons script rest ih =>
      refine .bind (script.run_goesFree setting context) fun ran => ?_
      split
      · exact .pure _
      · refine .bind (.publish site _) fun _ => ?_
        split
        · exact .pure _
        · split
          · exact .pure _
          · exact ih _

theorem runElementScripts_goesFree (setting : Setting) (schema : Schema) (context : Context) :
    (runElementScripts setting site element schema result context).GoesFree configuration := by
  rw [runElementScripts]
  dsimp only
  split
  · exact .pure _
  · split
    · exact .bind (.publish site _) fun _ => .pure _
    · exact runScripts_goesFree setting _ context

theorem takeManualInput_goesFree (input : Option (Option Interaction)) :
    (takeManualInput site result input).GoesFree configuration := by
  cases input with
  | none => exact .bind (.publish site _) fun _ => .pure _
  | some input =>
      refine .bind (.publish site _) fun _ => .bind ?_ fun _ => .pure _
      rw [cancelIf]
      split
      · exact .request rfl
      · exact .pure _

/-- A site in whose trees everything can be seen that is put there. -/
def Site.Reveals (site : Site) : Prop :=
  ∀ results shown, ElementResult.Show results shown → ElementResult.Show (site.plug results) shown

theorem Site.Reveals.below (reveals : site.Reveals) (result : ElementResult) :
    (site.below result).Reveals := by
  rintro results shown ⟨top, topMem, holds⟩
  apply reveals
  have childMem : top ∈ ({ result with results } : ElementResult).results := topMem
  exact ⟨{ result with results }, by simp, .deeper childMem holds⟩

/-- A run waits for the result of a leaf only once it has shown that it does. -/
theorem awaitManualResult_attends (setting : Setting) (reveals : site.Reveals)
    (isLeaf : configuration.HasLeaf element) (isResult : result.elementId = element.id)
    (noVerdict : result.verdict = none) (isClear : attendance.isClear) :
    (awaitManualResult setting site result).Obeys (attending configuration) attendance
      fun _ reached => reached.isFree := by
  rw [awaitManualResult]
  split
  · exact Program.GoesFree.bind (.publish site _) (fun _ => .pure _) attendance
      (Attendance.isFree_of_isClear isClear)
  · refine ⟨Attendance.isFree_of_isClear isClear, fun start => ?_⟩
    let waiting := { result with manual := some .waiting, start := some start }
    have awaits : configuration.Awaits (waiting.shownAt site) :=
      ⟨element, waiting, isLeaf, reveals _ _ ⟨waiting, by simp, .itself⟩, isResult, rfl, noVerdict⟩
    refine ⟨Attendance.isFree_of_isClear isClear, fun _ => ?_⟩
    have announced : attendance.after (.publish (waiting.shownAt site)) () =
        .announced (waiting.shownAt site) := if_pos isClear
    change Program.Obeys _ _ (attendance.after (.publish (waiting.shownAt site)) ()) _
    rw [announced]
    exact ⟨⟨_, rfl, awaits⟩, fun _ => ⟨rfl, fun input =>
      takeManualInput_goesFree input .loose rfl⟩⟩

/-- The manual leaves of an element belong to a configuration. -/
def Element.IsPart (configuration : Configuration) (element : Element) : Prop :=
  ∀ leaf, element = leaf ∨ element.Above leaf → leaf.isManualLeaf → configuration.HasLeaf leaf

theorem Element.IsPart.child {child : Element} (isPart : element.IsPart configuration)
    (childMem : child ∈ element.children) : child.IsPart configuration := by
  intro leaf isBelow
  apply isPart leaf
  rcases isBelow with rfl | above
  · exact .inr (.child childMem)
  · exact .inr (.deeper childMem above)

/-- A way of visiting an element that attends to its testers, wherever the element is visited. -/
def Element.Attends (configuration : Configuration) (element : Element) (visit : ElementVisit) :
    Prop :=
  element.IsPart configuration →
    ∀ site : Site, site.Reveals → ∀ context, (visit site context).GoesFree configuration

theorem walkLevel_goesFree {visitors : List Visitor} {elements : List Element}
    (visits : List.Forall₂ (Visitor.Visits (Element.Attends configuration)) visitors elements)
    (areParts : ∀ element ∈ elements, element.IsPart configuration)
    (reveals : site.Reveals) (authored : List Element) (context : Context) :
    (walkLevel site visitors authored context).GoesFree configuration := by
  induction visits generalizing site authored context with
  | nil => exact .pure _
  | @cons visitor element visitors elements visit _ ih =>
      rw [List.forall_mem_cons] at areParts
      refine .bind (visit.visited areParts.1 site reveals context) fun ran => ?_
      have stillReveals :
          Site.Reveals { site with siblings := site.siblings ++ ran.result.toList } := reveals
      have rest := ih areParts.2 stillReveals
      cases ran.ending with
      | completed => exact rest _ _
      | interrupted => exact .pure _
      | crashed => exact .pure _

theorem runElement_attends (setting : Setting) {schema : Schema} {children : List Visitor}
    {context : Context} (reveals : site.Reveals) (isPart : element.IsPart configuration)
    (visits : List.Forall₂ (Visitor.Visits (Element.Attends configuration)) children
      element.children)
    (isClear : attendance.isClear) :
    (runElement setting site element schema children context).Obeys (attending configuration)
      attendance fun _ reached => reached.isFree := by
  refine ⟨Attendance.isFree_of_isClear isClear, fun start => ?_⟩
  refine ⟨Attendance.isFree_of_isClear isClear, fun _ => ?_⟩
  have stillClear (results : List ElementResult) :
      (attendance.after (.publish results) ()).isClear := by
    rw [Attendance.after, if_pos isClear]
    rfl
  change Program.Obeys _ (if element.isManualLeaf then _ else _) _ _
  split
  · rename_i isManual
    refine Program.obeys_bind.mpr ((awaitManualResult_attends setting reveals
      (isPart element (.inl rfl) isManual) rfl rfl (stillClear _)).imp ?_)
    rintro ⟨result, ending⟩ reached isFree
    exact closeElement_goesFree ending _ reached isFree
  · refine Program.GoesFree.bind (runElementScripts_goesFree setting schema _) (fun ran => ?_) _
      (Attendance.isFree_of_isClear (stillClear _))
    split
    · exact closeElement_goesFree _ _
    · have sorted := forall₂_inOrder (fun _ _ visit => visit.order) visits
      have areParts : ∀ child ∈ inOrder Element.order element.children,
          child.IsPart configuration := by
        intro child childMem
        exact isPart.child ((inOrder_perm Element.order _).mem_iff.mp childMem)
      refine .bind (walkLevel_goesFree sorted areParts (reveals.below _) _ _) fun level => ?_
      exact closeElement_goesFree _ _

theorem visitElement_attends (setting : Setting) (element : Element) (children : List Visitor)
    (visits : List.Forall₂ (Visitor.Visits (Element.Attends configuration)) children
      element.children) :
    element.Attends configuration (visitElement setting element children) := by
  intro isPart site reveals context attendance isFree
  refine Program.obeys_ask.mpr ⟨isFree, fun goesOn => ?_⟩
  cases goesOn with
  | false => rfl
  | true =>
      rw [if_neg (by decide)]
      split
      · exact settleElement_goesFree _ _ _ _ rfl
      · split
        · exact settleElement_goesFree _ _ _ _ rfl
        · split
          · exact settleElement_goesFree _ _ _ _ rfl
          · exact runElement_attends setting reveals isPart visits rfl

end Elements

/-! ### Configurations -/

theorem Configuration.run_goesFree (setting : Setting) (configuration : Configuration)
    (context : Context) : (configuration.run setting context).GoesFree configuration := by
  refine .bind (.request rfl) fun goesOn => ?_
  cases goesOn with
  | false => exact .pure _
  | true =>
      refine .bind (.request rfl) fun _ => ?_
      have visits : List.Forall₂ (Visitor.Visits (Element.Attends configuration))
          (Element.visitors setting 0 configuration.elements) configuration.elements :=
        Element.visitors_induction (visitElement_attends setting) 0 configuration.elements
      have sorted := forall₂_inOrder (fun _ _ visit => visit.order) visits
      have areParts : ∀ element ∈ inOrder Element.order configuration.elements,
          element.IsPart configuration := by
        intro element elementMem leaf isBelow isManual
        exact ⟨isManual, element, (inOrder_perm Element.order _).mem_iff.mp elementMem, isBelow⟩
      exact .bind (walkLevel_goesFree sorted areParts (fun _ _ shows => shows) _ _) fun _ => .pure _

/-- The run of a job attends to its testers, and ends its job. -/
theorem Configuration.finishJob_attends (setting : Setting) (configuration : Configuration)
    (context : Context) :
    (configuration.run setting context >>= fun ran => Program.request (.endJob ran.ending)).Obeys
      (attending configuration) .loose fun _ reached => reached = .closed := by
  refine Program.obeys_bind.mpr ((configuration.run_goesFree setting context .loose rfl).imp ?_)
  exact fun _ _ isFree => ⟨isFree, fun _ => rfl⟩

end TestEngine
