import TestEngine.Proofs.Walk.Attendance

/-!
# Results that testers abort

A script that is cut short has a verdict of its own, which its element does not take over: an
element with a failing script has failed. Only a tester can give an element that verdict, by
delivering a finished result that has it. A tree of results is *attested* if each of its elements
has the verdict exactly if its tester's result says so, and everything that a walk shows is
attested, whatever the answers to its requests are.
-/

namespace TestEngine

variable {α β : Type}

/-! ### Programs that show good results only -/

/-- The protocol of programs that show only results that are good. -/
def showing (good : ElementResult → Prop) : Protocol Unit where
  allows _ request :=
    match request with
    | .publish results => ∀ result ∈ results, good result
    | _ => True
  after _ _ _ := ()

/-- A program that shows only good results and ends with a value that satisfies a condition. -/
def Program.Shows (good : ElementResult → Prop) (program : Program α) (condition : α → Prop) :
    Prop :=
  program.Obeys (showing good) () fun value _ => condition value

def Request.isSilent : Request → Bool
  | publish _ => false
  | _ => true

namespace Program.Shows

variable {good : ElementResult → Prop} {condition : α → Prop}

theorem pure {value : α} (holds : condition value) :
    Shows good (Pure.pure value : Program α) condition := holds

theorem imp {program : Program α} {weaker : α → Prop} (shows : program.Shows good condition)
    (weakens : ∀ value, condition value → weaker value) : program.Shows good weaker :=
  Program.Obeys.imp shows fun value _ => weakens value

theorem bind {program : Program β} {next : β → Program α} {middle : β → Prop}
    (first : program.Shows good middle)
    (rest : ∀ value, middle value → (next value).Shows good condition) :
    Shows good (program >>= next) condition :=
  Program.obeys_bind.mpr (Program.Obeys.imp first fun value _ => rest value)

theorem silent {request : Request} {next : request.Answer → Program α} (isSilent : request.isSilent)
    (rest : ∀ answer, (next answer).Shows good condition) :
    Shows good (Program.request request >>= next) condition := by
  refine Program.obeys_ask.mpr ⟨?_, rest⟩
  cases request with
  | publish results => exact nomatch isSilent
  | _ => trivial

theorem publish {results : List ElementResult} {next : Unit → Program α}
    (areGood : ∀ result ∈ results, good result) (rest : (next ()).Shows good condition) :
    Shows good (Program.request (.publish results) >>= next) condition :=
  Program.obeys_ask.mpr ⟨areGood, fun _ => rest⟩

/-- A program that makes no requests but those of visits shows nothing. -/
theorem ofVisiting {program : Program α} {visited : α → Unit → Prop}
    (obeys : program.Obeys visiting () visited) : program.Shows good fun _ => True := by
  induction program with
  | done value => exact .pure trivial
  | ask request next ih =>
      have isSilent : request.isSilent := by
        cases request with
        | publish results => exact nomatch obeys.1
        | _ => rfl
      exact .silent isSilent fun answer => ih answer (obeys.2 answer)

theorem script (script : Script) {setting : Setting} {context : Context}
    {next : ScriptRun → Program α} (rest : ∀ ran, (next ran).Shows good condition) :
    Shows good (script.run setting context >>= next) condition :=
  .bind (.ofVisiting (script.run_runs visitsOnly setting context ())) fun ran _ => rest ran

end Program.Shows

/-! ### Attested results -/

namespace ElementResult

/-- Whether the tester of an element has finished it and says that it was aborted. -/
def TellsAborted (result : ElementResult) : Prop :=
  ∃ manual, result.manual = some manual ∧ manual.status = .finished ∧
    manual.verdict = some .aborted

/-- A result in which elements are aborted exactly if their testers say so. What has a tester is a
leaf without scripts, so that nothing below it has a say. -/
inductive Attested : ElementResult → Prop
  | intro {result : ElementResult} (aborted : result.verdict = some .aborted ↔ result.TellsAborted)
      (leaf : result.manual.isSome → result.results = [] ∧ result.scripts = [])
      (results : ∀ child ∈ result.results, child.Attested) : result.Attested

/-- A result of an element that has no tester, as it is while its visit goes on. -/
structure Automatic (result : ElementResult) : Prop where
  manual : result.manual = none
  verdict : result.verdict ≠ some .aborted
  results : ∀ child ∈ result.results, child.Attested

theorem Automatic.attested {result : ElementResult} (automatic : result.Automatic) :
    result.Attested := by
  refine .intro ?_ ?_ automatic.results
  · simp [automatic.verdict, TellsAborted, automatic.manual]
  · simp [automatic.manual]

theorem Automatic.withResults {result : ElementResult} (automatic : result.Automatic)
    {results : List ElementResult} (attested : ∀ child ∈ results, child.Attested) :
    Automatic { result with results } :=
  ⟨automatic.manual, automatic.verdict, attested⟩

theorem Automatic.fail {result : ElementResult} (automatic : result.Automatic) (message : String) :
    (result.fail message).Automatic :=
  ⟨automatic.manual, by simp [ElementResult.fail], automatic.results⟩

theorem Automatic.skip {result : ElementResult} (automatic : result.Automatic) (message : String) :
    (result.skip message).Automatic :=
  ⟨automatic.manual, by simp [ElementResult.skip], automatic.results⟩

/-- However a script of it has ended, the element has passed or failed. -/
theorem Automatic.addScript {result : ElementResult} (automatic : result.Automatic)
    (script : ScriptResult) : (result.addScript script).Automatic := by
  rw [ElementResult.addScript]
  split
  · exact ⟨automatic.manual, by simp, automatic.results⟩
  · exact ⟨automatic.manual, automatic.verdict, automatic.results⟩

theorem automatic_ofElement (element : Element) (schema : Option Schema) (now : Calendar.Instant) :
    (ofElement element schema now).Automatic :=
  ⟨rfl, by simp [ofElement], by simp [ofElement]⟩

/-- Whatever was not aborted can be failed. -/
theorem Attested.fail {result : ElementResult} (attested : result.Attested)
    (notAborted : result.verdict ≠ some .aborted) (message : String) :
    (result.fail message).Attested := by
  cases attested with
  | intro aborted leaf results =>
      have silent : ¬result.TellsAborted := mt aborted.mpr notAborted
      exact .intro (iff_of_false (by simp [ElementResult.fail]) silent) leaf results

theorem attested_of_leaf {result : ElementResult}
    (aborted : result.verdict = some .aborted ↔ result.TellsAborted)
    (noResults : result.results = []) (noScripts : result.scripts = []) : result.Attested :=
  .intro aborted (fun _ => ⟨noResults, noScripts⟩) (by simp [noResults])

theorem attested_of_waiting {result : ElementResult} (noVerdict : result.verdict = none)
    (noResults : result.results = []) (noScripts : result.scripts = [])
    (waits : result.manual = some .waiting) : result.Attested := by
  refine attested_of_leaf ?_ noResults noScripts
  simp [noVerdict, TellsAborted, waits, ManualResult.waiting]

/-- The verdict of a tester's finished result is the verdict of the element. -/
theorem attested_takeManual {result : ElementResult} (noResults : result.results = [])
    (noScripts : result.scripts = []) (waits : result.manual = some .waiting)
    (input : Option Interaction) : (result.takeManual input).1.Attested := by
  rcases result.continues_takeManual input with ⟨continues, scripts⟩
  refine attested_of_leaf ?_ (continues.results.trans noResults) (scripts.trans noScripts)
  rw [takeManual]
  split
  · simp [ElementResult.fail, TellsAborted, waits, ManualResult.waiting]
  · rename_i manual _
    split
    · rename_i finished
      cases verdict : manual.verdict <;> simp [TellsAborted, finished, verdict]
    · rename_i aborted
      simp [ElementResult.fail, TellsAborted, aborted]
    · simp [ElementResult.fail, TellsAborted, waits, ManualResult.waiting]

@[simp]
theorem manual_finish (result : ElementResult) (now : Calendar.Instant) :
    (result.finish now).manual = result.manual := by
  rw [finish, rollUp_eq]

/-- An element ends as aborted if it was aborted before and nothing below it has failed. -/
theorem verdict_finish_eq_aborted {result : ElementResult} (now : Calendar.Instant) :
    (result.finish now).verdict = some .aborted ↔
      result.verdict = some .aborted ∧
        (result.results.any isFailed || result.scripts.any ScriptResult.isFailed) = false := by
  simp only [finish, rollUp]
  split
  · rename_i skipped
    have verdict : result.verdict = some .skipped := by simpa [isSkipped] using skipped
    simp [verdict]
  · split
    · rename_i failsBelow
      simp [failsBelow]
    · rename_i stands
      cases verdict : result.verdict <;> simp [stands]

/-- The end of its visit aborts no element. -/
theorem Attested.finish {result : ElementResult} (attested : result.Attested)
    (now : Calendar.Instant) : (result.finish now).Attested := by
  cases attested with
  | intro aborted leaf results =>
      refine .intro ?_ (by simpa using leaf) (by simpa using results)
      have sameTestimony : (result.finish now).TellsAborted ↔ result.TellsAborted := by
        simp [TellsAborted]
      rw [sameTestimony, verdict_finish_eq_aborted, ← aborted, and_iff_left_iff_imp]
      intro isAborted
      rcases aborted.mp isAborted with ⟨manual, hasManual, -⟩
      rcases leaf (by simp [hasManual]) with ⟨noResults, noScripts⟩
      simp [noResults, noScripts]

end ElementResult

/-! ### Sites -/

/-- A site at which an attested result leaves the whole tree attested. -/
structure Site.Attested (site : Site) : Prop where
  siblings : ∀ result ∈ site.siblings, result.Attested
  plug : ∀ results : List ElementResult, (∀ result ∈ results, result.Attested) →
    ∀ result ∈ site.plug results, result.Attested

namespace Site.Attested

variable {site : Site} {result : ElementResult}

theorem shownAt (attested : site.Attested) (resultAttested : result.Attested) :
    ∀ shown ∈ result.shownAt site, shown.Attested := by
  apply attested.plug
  simp only [List.forall_mem_append, List.forall_mem_singleton]
  exact ⟨attested.siblings, resultAttested⟩

theorem below (attested : site.Attested) (automatic : result.Automatic) :
    (site.below result).Attested where
  siblings := automatic.results
  plug := by
    intro results childrenAttested
    exact attested.shownAt (automatic.withResults childrenAttested).attested

theorem withResult (attested : site.Attested) {added : Option ElementResult}
    (addedAttested : ∀ result ∈ added, result.Attested) :
    Attested { site with siblings := site.siblings ++ added.toList } where
  siblings := by
    simpa [or_imp, forall_and] using ⟨attested.siblings, addedAttested⟩
  plug := attested.plug

end Site.Attested

theorem Site.attested_top : Site.top.Attested := ⟨by simp [Site.top], fun _ attested => attested⟩

/-! ### Elements -/

section Elements

variable {site : Site} {element : Element} {result : ElementResult} {context : Context}

/-- A run of an element that ends with an attested result, if it ends with one. -/
def ElementRun.Attested (ran : ElementRun) : Prop := ∀ result ∈ ran.result, result.Attested

theorem closeElement_attests (attested : site.Attested) (resultAttested : result.Attested)
    (ending : Ending) :
    (closeElement site element result ending context).Shows ElementResult.Attested
      ElementRun.Attested := by
  have closes (stop : Calendar.Instant) (result : ElementResult) (resultAttested : result.Attested)
      (ending : Ending) :
      Program.Shows ElementResult.Attested
        (site.publish (result.finish stop) >>= fun _ =>
          return ⟨element, some (result.finish stop), ending, context⟩) ElementRun.Attested := by
    have finished := resultAttested.finish stop
    exact .publish (attested.shownAt finished) (.pure (by simpa [ElementRun.Attested]))
  cases ending with
  | crashed => exact .pure (by simpa [ElementRun.Attested])
  | completed => exact .silent rfl fun stop => closes stop result resultAttested _
  | interrupted =>
      refine .silent rfl fun stop => closes stop _ ?_ _
      split
      · rename_i isOpen
        exact resultAttested.fail (by simp_all) _
      · exact resultAttested

theorem settleElement_attests (attested : site.Attested) {judge : ElementResult → ElementResult}
    (judged : ∀ {result : ElementResult}, result.Automatic → (judge result).Automatic)
    (schema : Option Schema) :
    (settleElement site element context judge schema).Shows ElementResult.Attested
      ElementRun.Attested := by
  refine .silent rfl fun start => .silent rfl fun stop => ?_
  have settled := (judged (ElementResult.automatic_ofElement element schema start)).attested
  have finished := settled.finish stop
  exact .publish (attested.shownAt finished) (.pure (by simpa [ElementRun.Attested]))

theorem runScripts_attests (setting : Setting) (attested : site.Attested) (scripts : List Script)
    (automatic : result.Automatic) :
    (runScripts site (scripts.map fun script => script.run setting) result context).Shows
      ElementResult.Attested fun ran => ran.result.Automatic := by
  induction scripts generalizing result context with
  | nil => exact .pure automatic
  | cons script rest ih =>
      refine .script script fun ran => ?_
      split
      · exact .pure automatic
      · have added := automatic.addScript ran.result
        refine .publish (attested.shownAt added.attested) ?_
        split
        · exact .pure added
        · split
          · exact .pure added
          · exact ih added

theorem runElementScripts_attests (setting : Setting) (attested : site.Attested) (schema : Schema)
    (automatic : result.Automatic) :
    (runElementScripts setting site element schema result context).Shows ElementResult.Attested
      fun ran => ran.result.Automatic := by
  rw [runElementScripts]
  dsimp only
  split
  · exact .pure automatic
  · split
    · have failed := automatic.fail ("Configuration error: element '" ++ element.name ++
        "' permits one script but has " ++ toString element.scripts.length)
      exact .publish (attested.shownAt failed.attested) (.pure failed)
    · exact runScripts_attests setting attested _ automatic

theorem takeManualInput_attests (attested : site.Attested) (noVerdict : result.verdict = none)
    (noResults : result.results = []) (noScripts : result.scripts = [])
    (waits : result.manual = some .waiting) (input : Option (Option Interaction)) :
    (takeManualInput site result input).Shows ElementResult.Attested fun taken =>
      taken.1.Attested := by
  cases input with
  | none =>
      have waiting := ElementResult.attested_of_waiting noVerdict noResults noScripts waits
      have failed := waiting.fail (by simp [noVerdict]) "Manual execution interrupted"
      exact .publish (attested.shownAt failed) (.pure failed)
  | some input =>
      have taken := ElementResult.attested_takeManual noResults noScripts waits input
      refine .publish (attested.shownAt taken) ?_
      rw [cancelIf]
      split
      · exact .silent rfl fun _ => .pure taken
      · exact .pure taken

/-- The result of a tester's element is attested before the tester has delivered it and after. -/
theorem awaitManualResult_attests (setting : Setting) (attested : site.Attested)
    (automatic : result.Automatic) (noVerdict : result.verdict = none)
    (noResults : result.results = []) (noScripts : result.scripts = []) :
    (awaitManualResult setting site result).Shows ElementResult.Attested fun taken =>
      taken.1.Attested := by
  rw [awaitManualResult]
  split
  · have failed := (automatic.fail "Manual element cannot run without a job").attested
    exact .publish (attested.shownAt failed) (.pure failed)
  · refine .silent rfl fun start => ?_
    have waiting : ElementResult.Attested
        { result with manual := some .waiting, start := some start } :=
      ElementResult.attested_of_waiting noVerdict noResults noScripts rfl
    refine .publish (attested.shownAt waiting) (.silent rfl fun _ => .silent rfl fun input => ?_)
    exact takeManualInput_attests attested (by exact noVerdict) (by exact noResults)
      (by exact noScripts) rfl input

/-- A way of visiting an element that shows only attested results where all are attested. -/
def Element.Attests (_ : Element) (visit : ElementVisit) : Prop :=
  ∀ site : Site, site.Attested → ∀ context,
    (visit site context).Shows ElementResult.Attested ElementRun.Attested

theorem walkLevel_attests {visitors : List Visitor} {elements : List Element}
    (visits : List.Forall₂ (Visitor.Visits Element.Attests) visitors elements)
    (attested : site.Attested) (authored : List Element) (context : Context) :
    (walkLevel site visitors authored context).Shows ElementResult.Attested fun level =>
      ∀ result ∈ level.results, result.Attested := by
  induction visits generalizing site authored context with
  | nil => exact .pure attested.siblings
  | @cons visitor element visitors elements visit _ ih =>
      refine .bind (visit.visited site attested context) fun ran ranAttested => ?_
      have added := attested.withResult ranAttested
      cases ran.ending with
      | completed => exact ih added _ _
      | interrupted => exact .pure added.siblings
      | crashed => exact .pure added.siblings

theorem runElement_attests (setting : Setting) (attested : site.Attested) {schema : Schema}
    {children : List Visitor}
    (visits : List.Forall₂ (Visitor.Visits Element.Attests) children element.children) :
    (runElement setting site element schema children context).Shows ElementResult.Attested
      ElementRun.Attested := by
  refine .silent rfl fun start => ?_
  have opened := ElementResult.automatic_ofElement element (some schema) start
  refine .publish (attested.shownAt opened.attested) ?_
  split
  · refine .bind (awaitManualResult_attests setting attested opened rfl rfl rfl) ?_
    rintro ⟨result, ending⟩ taken
    exact closeElement_attests attested taken ending
  · refine .bind (runElementScripts_attests setting attested schema opened) fun ran automatic => ?_
    split
    · exact closeElement_attests attested automatic.attested ran.ending
    · have sorted := forall₂_inOrder (fun _ _ visit => visit.order) visits
      refine .bind (walkLevel_attests sorted (attested.below automatic) _ _) fun level below => ?_
      exact closeElement_attests attested (automatic.withResults below).attested level.ending

theorem visitElement_attests (setting : Setting) (element : Element) (children : List Visitor)
    (visits : List.Forall₂ (Visitor.Visits Element.Attests) children element.children) :
    element.Attests (visitElement setting element children) := by
  intro site attested context
  refine .silent rfl fun goesOn => ?_
  cases goesOn with
  | false => exact .pure (by simp [ElementRun.Attested])
  | true =>
      rw [if_neg (by decide)]
      split
      · exact settleElement_attests attested (fun automatic => automatic.fail _) none
      · rename_i schema _
        split
        · exact settleElement_attests attested (fun automatic => automatic.skip _) (some schema)
        · split
          · exact settleElement_attests attested (fun automatic => automatic.skip _) (some schema)
          · exact runElement_attests setting attested visits

end Elements

/-! ### Configurations -/

theorem Configuration.run_attests (setting : Setting) (configuration : Configuration)
    (context : Context) :
    (configuration.run setting context).Shows ElementResult.Attested fun _ => True := by
  refine .silent rfl fun goesOn => ?_
  cases goesOn with
  | false => exact .pure trivial
  | true =>
      refine .silent rfl fun _ => ?_
      have sorted := forall₂_inOrder (fun _ _ visit => visit.order)
        (Element.visitors_induction (visitElement_attests setting) 0 configuration.elements)
      exact .bind (walkLevel_attests sorted Site.attested_top _ _) fun level _ => .pure trivial

/-- Everything that the run of a job shows is attested. -/
theorem Configuration.runJob_attests (setting : Setting) (configuration : Configuration)
    (context : Context) :
    (configuration.runJob setting context).Shows ElementResult.Attested fun _ => True := by
  refine .silent rfl fun refused => ?_
  cases refused with
  | some status => exact .pure trivial
  | none =>
      refine .bind (configuration.run_attests setting context) fun ran _ => ?_
      exact .silent rfl fun _ => .pure trivial

end TestEngine
