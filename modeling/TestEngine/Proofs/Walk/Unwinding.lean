import TestEngine.Proofs.Script.Unwinding
import TestEngine.Proofs.Walk.Soundness

/-!
# Unwinding of walks

A walk publishes a tree that only grows, and ends it in one of two ways. If it was not cut short,
every visit in the tree is over and nothing in it is aborted. If it was interrupted, the visits that
were still open when the run was told so lie on the rightmost path: they are ended as failed from
the innermost one upwards, and all other results stay as they were.
-/

namespace TestEngine

/-! ### Results that a walk leaves -/

/-- A result whose visit is over, with nothing cut short below it. -/
inductive ElementResult.Settled : ElementResult → Prop
  | intro {result : ElementResult} (isOver : result.stop.isSome)
      (scripts : ∀ script ∈ result.scripts, script.Whole)
      (results : ∀ child ∈ result.results, child.Settled) : result.Settled

/-- What of a result does not change any more once its element is looked at. -/
def ElementResult.bare (result : ElementResult) : ElementResult :=
  { result with
    verdict := none, stop := none, duration := none, message := none, results := [], scripts := [] }

/-- A visit that was open is ended as failed. -/
structure ElementResult.Ends (before after : ElementResult) : Prop where
  isOpen : before.stop = none
  whole : ∀ script ∈ before.scripts, script.Whole
  bare : after.bare = before.bare
  verdict : after.verdict = some .failed
  isOver : after.stop.isSome

mutual

/-- What an interruption makes of an element whose visit was open: it was noticed either in a
script, or else not before a child was to be visited or while one was. -/
inductive ElementResult.Closes : ElementResult → ElementResult → Prop
  | inScript {before after : ElementResult} {cut : ScriptResult} (ends : before.Ends after)
      (scripts : after.scripts = before.scripts ++ [cut]) (cutShort : cut.CutShort)
      (noResults : before.results = []) (stillNone : after.results = []) : before.Closes after
  | atChild {before after : ElementResult} (ends : before.Ends after)
      (scripts : after.scripts = before.scripts)
      (results : ElementResult.Unwound before.results after.results) : before.Closes after

/-- What an interruption makes of siblings: only the last one may have been open. -/
inductive ElementResult.Unwound : List ElementResult → List ElementResult → Prop
  | between {results : List ElementResult} (settled : ∀ result ∈ results, result.Settled) :
      ElementResult.Unwound results results
  | within {earlier : List ElementResult} {before after : ElementResult}
      (settled : ∀ result ∈ earlier, result.Settled) (closes : before.Closes after) :
      ElementResult.Unwound (earlier ++ [before]) (earlier ++ [after])

end

theorem ScriptResult.Whole.of_holds {result inner : ScriptResult} (whole : result.Whole)
    (holds : result.Holds inner) : inner.Whole := by
  induction holds with
  | itself => exact whole
  | embedded entryMem _ ih =>
      rcases whole with ⟨-, scripts⟩
      exact ih (scripts _ entryMem)

namespace ElementResult

theorem Unwound.cons {result : ElementResult} {before after : List ElementResult}
    (settled : result.Settled) (unwound : Unwound before after) :
    Unwound (result :: before) (result :: after) := by
  cases unwound with
  | between restSettled => exact .between (List.forall_mem_cons.mpr ⟨settled, restSettled⟩)
  | @within earlier before after restSettled closes =>
      change Unwound ((result :: earlier) ++ [before]) ((result :: earlier) ++ [after])
      exact .within (List.forall_mem_cons.mpr ⟨settled, restSettled⟩) closes

theorem Settled.of_holds {result inner : ElementResult} (settled : result.Settled)
    (holds : result.Holds inner) : inner.Settled := by
  induction holds with
  | itself => exact settled
  | deeper childMem _ ih =>
      rcases settled with ⟨-, -, results⟩
      exact ih (results _ childMem)

theorem Settled.verdict_ne_aborted {result : ElementResult} (settled : result.Settled)
    {script : ScriptResult} (holds : result.HoldsScript script) :
    script.verdict ≠ some .aborted := by
  rcases holds with ⟨holder, outer, holdsHolder, outerMem, outerHolds⟩
  rcases settled.of_holds holdsHolder with ⟨-, scripts, -⟩
  rcases (scripts outer outerMem).of_holds outerHolds with ⟨verdict, -⟩
  exact verdict

/-! ### Results of open visits -/

theorem Continues.grows {before after : ElementResult} (continues : before.Continues after)
    (isOpen : before.stop = none) (scripts : before.scripts <+: after.scripts) :
    before.Grows after := by
  refine .goesOn isOpen continues.elementId scripts ?_
  rw [continues.results]
  exact .refl _

@[simp]
theorem stop_finish (result : ElementResult) (now : Calendar.Instant) :
    (result.finish now).stop = some now := by
  rw [finish, rollUp_eq]

@[simp]
theorem bare_finish (result : ElementResult) (now : Calendar.Instant) :
    (result.finish now).bare = result.bare := by
  rw [finish, rollUp_eq]
  rfl

theorem grows_finish {result : ElementResult} (isOpen : result.stop = none)
    (now : Calendar.Instant) : result.Grows (result.finish now) :=
  (result.continues_finish now).grows isOpen (by simp)

/-- The result of an interrupted visit before its end is noted. -/
def failOpen (result : ElementResult) : ElementResult :=
  if result.verdict.isNone then result.fail "Execution interrupted" else result

theorem failOpen_eq (result : ElementResult) :
    result.failOpen = { result with
      verdict := result.failOpen.verdict, message := result.failOpen.message } := by
  cases result
  rw [failOpen]
  split <;> rfl

/-- A result that has no verdict, or has failed. -/
def IsUndecided (result : ElementResult) : Prop :=
  result.verdict = none ∨ result.verdict = some .failed

theorem verdict_failOpen {result : ElementResult} (undecided : result.IsUndecided) :
    result.failOpen.verdict = some .failed := by
  rcases undecided with unjudged | failed
  · simp [failOpen, unjudged, fail]
  · simp [failOpen, failed]

theorem verdict_finish_of_failed {result : ElementResult} (failed : result.verdict = some .failed)
    (now : Calendar.Instant) : (result.finish now).verdict = some .failed := by
  rw [finish, rollUp, if_neg (by simp [isSkipped, failed])]
  split
  · rfl
  · simp [failed]

/-- The result of a visit that was ended by an interruption. -/
def close (result : ElementResult) (now : Calendar.Instant) : ElementResult :=
  result.failOpen.finish now

@[simp]
theorem results_close (result : ElementResult) (now : Calendar.Instant) :
    (result.close now).results = result.results := by
  rw [close, results_finish, failOpen_eq]

@[simp]
theorem scripts_close (result : ElementResult) (now : Calendar.Instant) :
    (result.close now).scripts = result.scripts := by
  rw [close, scripts_finish, failOpen_eq]

theorem ends_close {before result : ElementResult} (now : Calendar.Instant)
    (isOpen : before.stop = none) (whole : ∀ script ∈ before.scripts, script.Whole)
    (bare : result.bare = before.bare) (undecided : result.IsUndecided) :
    before.Ends (result.close now) where
  isOpen := isOpen
  whole := whole
  bare := by
    rw [close, bare_finish, failOpen_eq]
    exact bare
  verdict := verdict_finish_of_failed (verdict_failOpen undecided) now
  isOver := by simp [close]

theorem grows_close {result : ElementResult} (isOpen : result.stop = none)
    (now : Calendar.Instant) : result.Grows (result.close now) := by
  have continues : result.Continues result.failOpen := by
    rw [failOpen_eq]
    exact ⟨rfl, rfl, rfl⟩
  exact (continues.trans (continues_finish _ now)).grows isOpen
    (result.scripts_close now ▸ List.prefix_rfl)

end ElementResult

/-! ### Sites -/

/-- A site that shows a tree which grows with the results in the place of the siblings. -/
def Site.Growing (site : Site) : Prop :=
  ∀ before after, ElementResult.AllGrow before after →
    ElementResult.AllGrow (site.plug before) (site.plug after)

namespace Site.Growing

variable {site : Site}

theorem top : Site.top.Growing := fun _ _ grow => grow

theorem withSiblings (growing : site.Growing) (siblings : List ElementResult) :
    Growing { site with siblings } := growing

theorem below (growing : site.Growing) {result : ElementResult} (isOpen : result.stop = none) :
    (site.below result).Growing :=
  fun _ _ grow => growing _ _ (.append _ (.cons (.goesOn isOpen rfl List.prefix_rfl grow) .nil))

theorem enter (growing : site.Growing) (result : ElementResult) :
    ElementResult.AllGrow (site.plug site.siblings) (result.shownAt site) :=
  growing _ _ (.append_right _ _)

theorem moves (growing : site.Growing) {before after : ElementResult} (grows : before.Grows after) :
    ElementResult.AllGrow (before.shownAt site) (after.shownAt site) :=
  growing _ _ (.append _ (.cons grows .nil))

end Site.Growing

/-- The chronicle of a run under way that was not told of an interruption and shows some results. -/
def Chronicle.showing (shown : List ElementResult) : Chronicle := ⟨shown, none, false⟩

/-- The chronicle of a run under way that was told of an interruption when it showed some results,
and shows others now. -/
def Chronicle.unwinding (told shown : List ElementResult) : Chronicle := ⟨shown, some told, false⟩

/-- A run under way that has not been told of an interruption. -/
def Chronicle.Untold (chronicle : Chronicle) : Prop :=
  chronicle.told = none ∧ chronicle.isOver = false

/-! ### Ends of visits -/

/-- What is known when the visit of an element is about to end. -/
inductive ElementResult.Closing (result : ElementResult) (site : Site) : Ending → Chronicle → Prop
  | completed (isOpen : result.stop = none) (scripts : ∀ script ∈ result.scripts, script.Whole)
      (results : ∀ child ∈ result.results, child.Settled) :
      result.Closing site .completed (.showing (result.shownAt site))
  | interrupted {before : ElementResult} (isOpen : result.stop = none)
      (closes : ∀ now, before.Closes (result.close now)) :
      result.Closing site .interrupted (.unwinding (before.shownAt site) (result.shownAt site))
  | crashed {chronicle : Chronicle} (untold : chronicle.Untold) :
      result.Closing site .crashed chronicle

/-- What the visit of an element leaves behind at its site. -/
inductive ElementRun.Unwinds (ran : ElementRun) (site : Site) : Chronicle → Prop
  | settled {result : ElementResult} (completed : ran.ending = .completed)
      (ranResult : ran.result = some result) (settled : result.Settled) :
      ran.Unwinds site (.showing (result.shownAt site))
  | unvisited (interrupted : ran.ending = .interrupted) (noResult : ran.result = none) :
      ran.Unwinds site (.unwinding (site.plug site.siblings) (site.plug site.siblings))
  | closed {before result : ElementResult} (interrupted : ran.ending = .interrupted)
      (ranResult : ran.result = some result) (closes : before.Closes result) :
      ran.Unwinds site (.unwinding (before.shownAt site) (result.shownAt site))
  | crashed {chronicle : Chronicle} (crashed : ran.ending = .crashed) (untold : chronicle.Untold) :
      ran.Unwinds site chronicle

theorem closeElement_unwinds {site : Site} (growing : site.Growing) {element : Element}
    {result : ElementResult} {ending : Ending} {context : Context} {chronicle : Chronicle}
    (closing : result.Closing site ending chronicle) :
    (closeElement site element result ending context).Obeys chronicling chronicle
      fun ran reached => ran.Unwinds site reached := by
  cases closing with
  | crashed untold => exact .crashed rfl untold
  | completed isOpen scripts results =>
      refine ⟨trivial, fun now => ⟨⟨rfl, growing.moves (ElementResult.grows_finish isOpen now)⟩,
        fun _ => .settled rfl rfl (.intro ?_ ?_ ?_)⟩⟩
      · simp
      · simpa using scripts
      · simpa using results
  | interrupted isOpen closes =>
      exact ⟨trivial, fun now => ⟨⟨rfl, growing.moves (ElementResult.grows_close isOpen now)⟩,
        fun _ => .closed rfl rfl (closes now)⟩⟩

theorem settleElement_unwinds {site : Site} (growing : site.Growing) {element : Element}
    {context : Context} {judge : ElementResult → ElementResult} {schema : Option Schema}
    (judged : ∀ result : ElementResult, result.Continues (judge result) ∧
      (judge result).scripts = result.scripts) :
    (settleElement site element context judge schema).Obeys chronicling
      (.showing (site.plug site.siblings)) fun ran reached => ran.Unwinds site reached := by
  refine ⟨trivial, fun start => ⟨trivial, fun stop => ⟨⟨rfl, growing.enter _⟩,
    fun _ => .settled rfl rfl (.intro ?_ ?_ ?_)⟩⟩⟩
  · simp
  · have noScripts : (judge (.ofElement element schema start)).scripts = [] := (judged _).2
    simp [noScripts]
  · have noResults : (judge (.ofElement element schema start)).results = [] := (judged _).1.results
    simp [noResults]

/-! ### Scripts of an element -/

namespace ElementResult

/-- A result whose visit has not come to the children yet. -/
structure IsOpen (result : ElementResult) : Prop where
  stop : result.stop = none
  undecided : result.IsUndecided
  scripts : ∀ script ∈ result.scripts, script.Whole
  results : result.results = []

theorem isOpen_ofElement (element : Element) (schema : Option Schema) (now : Calendar.Instant) :
    (ofElement element schema now).IsOpen :=
  ⟨rfl, .inl rfl, by simp [ofElement], rfl⟩

theorem IsOpen.fail {result : ElementResult} (isOpen : result.IsOpen) (message : String) :
    (result.fail message).IsOpen :=
  ⟨isOpen.stop, .inr rfl, isOpen.scripts, isOpen.results⟩

theorem grows_fail {result : ElementResult} (isOpen : result.stop = none) (message : String) :
    result.Grows (result.fail message) :=
  Continues.grows ⟨rfl, rfl, rfl⟩ isOpen List.prefix_rfl

@[simp]
theorem stop_addScript (result : ElementResult) (script : ScriptResult) :
    (result.addScript script).stop = result.stop := by
  rw [addScript]
  split <;> rfl

@[simp]
theorem bare_addScript (result : ElementResult) (script : ScriptResult) :
    (result.addScript script).bare = result.bare := by
  rw [addScript]
  split <;> rfl

theorem undecided_addScript {result : ElementResult} (undecided : result.IsUndecided)
    (script : ScriptResult) : (result.addScript script).IsUndecided := by
  rw [addScript]
  split
  · exact .inr rfl
  · exact undecided

theorem IsOpen.addScript {result : ElementResult} (isOpen : result.IsOpen) {script : ScriptResult}
    (whole : script.Whole) : (result.addScript script).IsOpen where
  stop := by simpa using isOpen.stop
  undecided := undecided_addScript isOpen.undecided script
  scripts := by simpa [or_imp, forall_and] using ⟨isOpen.scripts, whole⟩
  results := (continues_addScript result script).results.trans isOpen.results

theorem grows_addScript {result : ElementResult} (isOpen : result.stop = none)
    (script : ScriptResult) : result.Grows (result.addScript script) :=
  (continues_addScript result script).grows isOpen (by simp)

end ElementResult

/-- What running the scripts of an element leaves behind. -/
inductive ScriptsRun.Unwinds (ran : ScriptsRun) (site : Site) : Chronicle → Prop
  | completed (completed : ran.ending = .completed) (isOpen : ran.result.IsOpen) :
      ran.Unwinds site (.showing (ran.result.shownAt site))
  | interrupted {before : ElementResult} {cut : ScriptResult}
      (interrupted : ran.ending = .interrupted) (isOpen : before.IsOpen)
      (ranResult : ran.result = before.addScript cut) (cutShort : cut.CutShort) :
      ran.Unwinds site (.unwinding (before.shownAt site) (ran.result.shownAt site))
  | crashed {chronicle : Chronicle} (crashed : ran.ending = .crashed) (untold : chronicle.Untold) :
      ran.Unwinds site chronicle

theorem runScripts_unwinds (setting : Setting) {site : Site} (growing : site.Growing)
    (scripts : List Script) {result : ElementResult} {context : Context}
    (isOpen : result.IsOpen) :
    (runScripts site (scripts.map fun script => script.run setting) result context).Obeys
      chronicling (.showing (result.shownAt site)) fun ran reached => ran.Unwinds site reached := by
  induction scripts generalizing result context with
  | nil => exact .completed rfl isOpen
  | cons script rest ih =>
      refine Program.obeys_bind.mpr ((script.run_unwinds setting context _).imp ?_)
      rintro ⟨scriptResult, ending, after⟩ reached ⟨chronicle, -, whole, cutShort⟩
      have grows := growing.moves (ElementResult.grows_addScript isOpen.stop scriptResult)
      cases ending with
      | crashed =>
          rw [chronicle]
          exact .crashed rfl ⟨rfl, rfl⟩
      | interrupted =>
          rw [chronicle]
          exact ⟨⟨rfl, grows⟩, fun _ => .interrupted rfl isOpen rfl (cutShort rfl)⟩
      | completed =>
          rw [chronicle]
          refine ⟨⟨rfl, grows⟩, fun _ => ?_⟩
          have stillOpen := isOpen.addScript (whole rfl)
          change Program.Obeys _ (if scriptResult.isFailed then _ else _) _ _
          split
          · exact .completed rfl stillOpen
          · exact ih stillOpen

theorem runElementScripts_unwinds (setting : Setting) {site : Site} (growing : site.Growing)
    (element : Element) (schema : Schema) {result : ElementResult} {context : Context}
    (isOpen : result.IsOpen) :
    (runElementScripts setting site element schema result context).Obeys chronicling
      (.showing (result.shownAt site)) fun ran reached => ran.Unwinds site reached := by
  rw [runElementScripts]
  split
  · exact .completed rfl isOpen
  · split
    · exact ⟨⟨rfl, growing.moves (ElementResult.grows_fail isOpen.stop _)⟩,
        fun _ => .completed rfl (isOpen.fail _)⟩
    · exact runScripts_unwinds setting growing _ isOpen

/-- The visit of an element whose scripts were cut short ends without its children. -/
theorem ScriptsRun.Unwinds.closing {ran : ScriptsRun} {site : Site} {chronicle : Chronicle}
    (unwinds : ran.Unwinds site chronicle) : ran.result.Closing site ran.ending chronicle := by
  cases unwinds with
  | completed completed isOpen =>
      rw [completed]
      exact .completed isOpen.stop isOpen.scripts (by simp [isOpen.results])
  | crashed crashed untold =>
      rw [crashed]
      exact .crashed untold
  | @interrupted before cut interrupted isOpen ranResult cutShort =>
      rw [interrupted]
      refine .interrupted (by simpa [ranResult] using isOpen.stop) fun now => ?_
      have noResults := (ElementResult.continues_addScript before cut).results.trans isOpen.results
      refine .inScript (ElementResult.ends_close now isOpen.stop isOpen.scripts ?_ ?_) ?_ cutShort
        isOpen.results ?_
      · rw [ranResult, ElementResult.bare_addScript]
      · rw [ranResult]
        exact ElementResult.undecided_addScript isOpen.undecided cut
      · rw [ranResult, ElementResult.scripts_close, ElementResult.scripts_addScript]
      · rw [ranResult, ElementResult.results_close, noResults]

/-! ### Manual elements -/

theorem ElementResult.stop_takeManual (result : ElementResult) (input : Option Interaction) :
    (result.takeManual input).1.stop = result.stop := by
  rw [takeManual]
  split
  · rfl
  · split <;> rfl

theorem cancelIf_obeys {cancelled : Bool} {chronicle : Chronicle}
    {condition : Unit → Chronicle → Prop} (holds : condition () chronicle) :
    (cancelIf cancelled).Obeys chronicling chronicle condition := by
  cases cancelled with
  | false => exact holds
  | true => exact ⟨trivial, fun _ => holds⟩

/-- A tester settles the element; if the run was interrupted meanwhile, it is closed. -/
theorem takeManualInput_closing {site : Site} (growing : site.Growing) {result : ElementResult}
    (isOpen : result.IsOpen) (noScripts : result.scripts = [])
    (input : Option (Option Interaction)) :
    (takeManualInput site result input).Obeys chronicling
      ((Chronicle.showing (result.shownAt site)).after .awaitInteraction input)
      fun after reached => after.1.Closing site after.2 reached := by
  cases input with
  | none =>
      refine ⟨⟨rfl, growing.moves (ElementResult.grows_fail isOpen.stop _)⟩, fun _ =>
        .interrupted isOpen.stop fun now => ?_⟩
      refine .atChild (ElementResult.ends_close now isOpen.stop isOpen.scripts rfl (.inr rfl)) ?_ ?_
      · rw [ElementResult.scripts_close]
        rfl
      · rw [ElementResult.results_close]
        exact .between (by simp [isOpen.results])
  | some input =>
      rcases result.continues_takeManual input with ⟨continues, scripts⟩
      have grows := continues.grows isOpen.stop (scripts ▸ List.prefix_rfl)
      refine Program.obeys_bind.mpr ⟨⟨rfl, growing.moves grows⟩, fun _ =>
        Program.obeys_bind.mpr (cancelIf_obeys ?_)⟩
      refine .completed ((result.stop_takeManual input).trans isOpen.stop) ?_ ?_
      · simp [scripts, noScripts]
      · simp [continues.results, isOpen.results]

theorem awaitManualResult_closing (setting : Setting) {site : Site} (growing : site.Growing)
    {result : ElementResult} (isOpen : result.IsOpen) (noScripts : result.scripts = []) :
    (awaitManualResult setting site result).Obeys chronicling (.showing (result.shownAt site))
      fun after reached => after.1.Closing site after.2 reached := by
  rw [awaitManualResult]
  split
  · exact ⟨⟨rfl, growing.moves (ElementResult.grows_fail isOpen.stop _)⟩, fun _ =>
      .completed isOpen.stop (by simp [ElementResult.fail, noScripts])
        (by simp [ElementResult.fail, isOpen.results])⟩
  · refine ⟨trivial, fun start => ?_⟩
    let waiting := { result with manual := some .waiting, start := some start }
    have grows : result.Grows waiting :=
      ElementResult.Continues.grows ⟨rfl, rfl, rfl⟩ isOpen.stop List.prefix_rfl
    have stillOpen : waiting.IsOpen :=
      ⟨isOpen.stop, isOpen.undecided, isOpen.scripts, isOpen.results⟩
    exact ⟨⟨rfl, growing.moves grows⟩, fun _ => ⟨trivial, fun _ => ⟨trivial, fun input =>
      takeManualInput_closing growing stillOpen noScripts input⟩⟩⟩

/-! ### Elements -/

/-- What walking a level leaves behind at its site. -/
inductive LevelRun.Unwinds (level : LevelRun) (site : Site) : Chronicle → Prop
  | settled {results : List ElementResult} (completed : level.ending = .completed)
      (levelResults : level.results = site.siblings ++ results)
      (settled : ∀ result ∈ results, result.Settled) :
      level.Unwinds site (.showing (site.plug level.results))
  | unwound {before after : List ElementResult} (interrupted : level.ending = .interrupted)
      (levelResults : level.results = site.siblings ++ after)
      (unwound : ElementResult.Unwound before after) :
      level.Unwinds site
        (.unwinding (site.plug (site.siblings ++ before)) (site.plug level.results))
  | crashed {chronicle : Chronicle} (crashed : level.ending = .crashed)
      (untold : chronicle.Untold) : level.Unwinds site chronicle

namespace LevelRun.Unwinds

variable {level : LevelRun} {site : Site} {chronicle : Chronicle}

/-- A level whose next element was not to be visited any more is left as it is. -/
theorem unvisited (interrupted : level.ending = .interrupted)
    (noneAdded : level.results = site.siblings) :
    level.Unwinds site (.unwinding (site.plug site.siblings) (site.plug site.siblings)) := by
  have levelResults : level.results = site.siblings ++ [] := by simp [noneAdded]
  have unwinds := unwound interrupted levelResults (.between (by simp))
  rw [noneAdded, List.append_nil] at unwinds
  exact unwinds

theorem closed {before result : ElementResult} (interrupted : level.ending = .interrupted)
    (levelResults : level.results = site.siblings ++ [result]) (closes : before.Closes result) :
    level.Unwinds site (.unwinding (before.shownAt site) (result.shownAt site)) := by
  have last : ElementResult.Unwound ([] ++ [before]) ([] ++ [result]) := .within (by simp) closes
  have unwinds := unwound interrupted levelResults last
  rw [levelResults] at unwinds
  exact unwinds

/-- What holds of a level behind one of its elements holds of the whole level. -/
theorem cons {result : ElementResult} (settled : result.Settled)
    (rest : level.Unwinds { site with siblings := site.siblings ++ [result] } chronicle) :
    level.Unwinds site chronicle := by
  cases rest with
  | crashed crashed untold => exact .crashed crashed untold
  | @settled results completed levelResults restSettled =>
      have allResults : level.results = site.siblings ++ (result :: results) := by
        simp [levelResults]
      exact .settled completed allResults (List.forall_mem_cons.mpr ⟨settled, restSettled⟩)
  | @unwound before after interrupted levelResults restUnwound =>
      have allResults : level.results = site.siblings ++ (result :: after) := by
        simp [levelResults]
      rw [List.append_assoc]
      exact .unwound interrupted allResults (restUnwound.cons settled)

end LevelRun.Unwinds

/-- A way of visiting an element that unwinds, wherever the element is visited. -/
def ElementVisit.Unwinds (visit : ElementVisit) : Prop :=
  ∀ site : Site, site.Growing → ∀ context,
    (visit site context).Obeys chronicling (.showing (site.plug site.siblings))
      fun ran reached => ran.Unwinds site reached

theorem walkLevel_unwinds {visitors : List Visitor} {elements : List Element} {site : Site}
    (growing : site.Growing) {authored : List Element} {context : Context}
    (visits : List.Forall₂ (Visitor.Visits fun _ => ElementVisit.Unwinds) visitors elements) :
    (walkLevel site visitors authored context).Obeys chronicling
      (.showing (site.plug site.siblings)) fun level reached => level.Unwinds site reached := by
  induction visits generalizing site authored context with
  | nil =>
      have noneAdded : site.siblings = site.siblings ++ [] := (List.append_nil _).symm
      exact .settled rfl noneAdded (by simp)
  | cons visit _ ih =>
      refine Program.obeys_bind.mpr ((visit.visited site growing context).imp ?_)
      rintro ⟨element, ranResult, ending, after⟩ reached unwinds
      cases unwinds with
      | crashed crashed untold =>
          obtain rfl : ending = .crashed := crashed
          exact .crashed rfl untold
      | unvisited interrupted noResult =>
          obtain rfl : ending = .interrupted := interrupted
          obtain rfl : ranResult = none := noResult
          exact .unvisited rfl (List.append_nil _)
      | @closed before result interrupted hasResult closes =>
          obtain rfl : ending = .interrupted := interrupted
          obtain rfl : ranResult = some result := hasResult
          exact .closed rfl rfl closes
      | @settled result completed hasResult settled =>
          obtain rfl : ending = .completed := completed
          obtain rfl : ranResult = some result := hasResult
          exact (ih (growing.withSiblings _)).imp fun _ _ rest => rest.cons settled

/-- What walking the children leaves behind closes the visit of their parent. -/
theorem LevelRun.Unwinds.closing {level : LevelRun} {site : Site} {result : ElementResult}
    {chronicle : Chronicle} (unwinds : level.Unwinds (site.below result) chronicle)
    (isOpen : result.IsOpen) :
    ElementResult.Closing { result with results := level.results } site level.ending chronicle := by
  have noSiblings : (site.below result).siblings = [] := isOpen.results
  cases unwinds with
  | crashed crashed untold =>
      rw [crashed]
      exact .crashed untold
  | settled completed levelResults settled =>
      rw [noSiblings, List.nil_append] at levelResults
      rw [completed]
      exact .completed isOpen.stop isOpen.scripts (levelResults ▸ settled)
  | @unwound before after interrupted levelResults unwound =>
      rw [noSiblings, List.nil_append] at levelResults ⊢
      rw [interrupted, levelResults]
      have closes (now : Calendar.Instant) : ElementResult.Closes { result with results := before }
          (ElementResult.close { result with results := after } now) := by
        refine .atChild (ElementResult.ends_close now isOpen.stop isOpen.scripts rfl
          isOpen.undecided) ?_ ?_
        · rw [ElementResult.scripts_close]
        · rw [ElementResult.results_close]
          exact unwound
      exact .interrupted isOpen.stop closes

theorem runElement_unwinds (setting : Setting) {site : Site} (growing : site.Growing)
    {element : Element} {schema : Schema} {children : List Visitor} {context : Context}
    (visits : List.Forall₂ (Visitor.Visits fun _ => ElementVisit.Unwinds) children
      element.children) :
    (runElement setting site element schema children context).Obeys chronicling
      (.showing (site.plug site.siblings)) fun ran reached => ran.Unwinds site reached := by
  refine ⟨trivial, fun start => ⟨⟨rfl, growing.enter _⟩, fun _ => ?_⟩⟩
  have isOpen := ElementResult.isOpen_ofElement element (some schema) start
  change Program.Obeys _ (if element.isManualLeaf then _ else _) _ _
  split
  · refine Program.obeys_bind.mpr ((awaitManualResult_closing setting growing isOpen rfl).imp ?_)
    exact fun _ _ closing => closeElement_unwinds growing closing
  · refine Program.obeys_bind.mpr
      ((runElementScripts_unwinds setting growing element schema isOpen).imp ?_)
    intro ran reached unwinds
    split
    · exact closeElement_unwinds growing unwinds.closing
    · rename_i goesOn
      have completed : ran.ending = .completed := by simp_all
      -- Children are visited only behind scripts that were not cut short, so what an interruption
      -- among them leaves open is the result of this visit and nothing in its scripts.
      cases unwinds with
      | interrupted interrupted => exact nomatch completed.symm.trans interrupted
      | crashed crashed => exact nomatch completed.symm.trans crashed
      | completed _ stillOpen =>
          have sorted := forall₂_inOrder (fun _ _ visit => visit.order) visits
          rw [← Site.plug_below]
          refine Program.obeys_bind.mpr
            ((walkLevel_unwinds (growing.below stillOpen.stop) sorted).imp ?_)
          exact fun level _ unwinds => closeElement_unwinds growing (unwinds.closing stillOpen)

theorem visitElement_unwinds (setting : Setting) (element : Element) (children : List Visitor)
    (visits : List.Forall₂ (Visitor.Visits fun _ => ElementVisit.Unwinds) children
      element.children) :
    ElementVisit.Unwinds (visitElement setting element children) := by
  intro site growing context
  refine Program.obeys_ask.mpr ⟨trivial, fun goesOn => ?_⟩
  cases goesOn with
  | false => exact .unvisited rfl rfl
  | true =>
      rw [if_neg (by decide)]
      split
      · exact settleElement_unwinds growing fun _ => ⟨⟨rfl, rfl, rfl⟩, rfl⟩
      · split
        · exact settleElement_unwinds growing fun _ => ⟨⟨rfl, rfl, rfl⟩, rfl⟩
        · split
          · exact settleElement_unwinds growing fun _ => ⟨⟨rfl, rfl, rfl⟩, rfl⟩
          · exact runElement_unwinds setting growing visits

/-! ### Configurations -/

/-- What the walk of a configuration leaves behind. -/
inductive ConfigurationRun.Unwinds (ran : ConfigurationRun) : Chronicle → Prop
  | settled (completed : ran.ending = .completed)
      (settled : ∀ result ∈ ran.results, result.Settled) :
      ran.Unwinds (.showing ran.results)
  | unwound {told : List ElementResult} (interrupted : ran.ending = .interrupted)
      (unwound : ElementResult.Unwound told ran.results) :
      ran.Unwinds (.unwinding told ran.results)
  | crashed {chronicle : Chronicle} (crashed : ran.ending = .crashed) (untold : chronicle.Untold) :
      ran.Unwinds chronicle

/-- The walk of a configuration unwinds, whatever the answers to its requests are. -/
theorem Configuration.run_unwinds (setting : Setting) (configuration : Configuration)
    (context : Context) :
    (configuration.run setting context).Obeys chronicling .initial fun ran reached =>
      ran.Unwinds reached := by
  refine Program.obeys_ask.mpr ⟨trivial, fun goesOn => ?_⟩
  cases goesOn with
  | false => exact .unwound rfl (.between (List.forall_mem_nil _))
  | true =>
      refine Program.obeys_ask.mpr ⟨trivial, fun _ => ?_⟩
      have sorted := forall₂_inOrder (fun _ _ visit => visit.order)
        (Element.visitors_induction (visitElement_unwinds setting) 0 configuration.elements)
      refine Program.obeys_bind.mpr ((walkLevel_unwinds Site.Growing.top sorted).imp ?_)
      intro level reached unwinds
      cases unwinds with
      | settled completed levelResults settled =>
          have sameResults : level.results = _ := levelResults
          exact .settled completed (by rw [sameResults]; exact settled)
      | unwound interrupted levelResults unwound =>
          have sameResults : level.results = _ := levelResults
          refine .unwound interrupted ?_
          rw [sameResults]
          exact unwound
      | crashed crashed untold => exact .crashed crashed untold

end TestEngine
