import Mathlib.Data.List.Forall2
import TestEngine.Proofs.Session.Attach
import TestEngine.Result.Path
import TestEngine.Run.Walk

/-!
# Growth of results

The tree of results grows while a configuration is walked: children and scripts are appended to the
results whose visits go on, and a result whose visit is over stays as it is. When the job is over,
the contents of deferred traces are filled in, and nothing else is touched. Neither moves a result,
so a client finds at the path of a result what has become of it.

The walk itself looks at few things of the results that it has put together. A change that leaves
these as they are goes unnoticed, and the walk decides as it would have without it.
-/

namespace TestEngine

/-! ### Trees that grow -/

mutual

/-- What may become of an element result while results are only added. -/
inductive ElementResult.Grows : ElementResult → ElementResult → Prop
  | stays {result : ElementResult} : result.Grows result
  | goesOn {before after : ElementResult} (isOpen : before.stop = none)
      (elementId : after.elementId = before.elementId) (scripts : before.scripts <+: after.scripts)
      (results : ElementResult.AllGrow before.results after.results) : before.Grows after

/-- What may become of siblings while results are only added: each keeps its place. -/
inductive ElementResult.AllGrow : List ElementResult → List ElementResult → Prop
  | nil {added : List ElementResult} : ElementResult.AllGrow [] added
  | cons {before after : ElementResult} {rest restAfter : List ElementResult}
      (grows : before.Grows after) (restGrows : ElementResult.AllGrow rest restAfter) :
      ElementResult.AllGrow (before :: rest) (after :: restAfter)

end

namespace ElementResult

theorem Grows.elementId {before after : ElementResult} (grows : before.Grows after) :
    after.elementId = before.elementId := by
  cases grows with
  | stays => rfl
  | goesOn _ elementId => exact elementId

theorem Grows.scripts {before after : ElementResult} (grows : before.Grows after) :
    before.scripts <+: after.scripts := by
  cases grows with
  | stays => exact List.prefix_rfl
  | goesOn _ _ scripts => exact scripts

theorem Grows.eq_of_stop {before after : ElementResult} (grows : before.Grows after)
    (isOver : before.stop.isSome) : after = before := by
  cases grows with
  | stays => rfl
  | goesOn isOpen => simp [isOpen] at isOver

namespace AllGrow

variable {before after : List ElementResult}

theorem append_right (results added : List ElementResult) : AllGrow results (results ++ added) := by
  induction results with
  | nil => exact .nil
  | cons result rest ih => exact .cons .stays ih

theorem refl (results : List ElementResult) : AllGrow results results := by
  simpa using append_right results []

theorem append {lasts lastsAfter : List ElementResult} (earlier : List ElementResult)
    (grow : AllGrow lasts lastsAfter) : AllGrow (earlier ++ lasts) (earlier ++ lastsAfter) := by
  induction earlier with
  | nil => exact grow
  | cons result rest ih => exact .cons .stays ih

end AllGrow

theorem Grows.results {before after : ElementResult} (grows : before.Grows after) :
    AllGrow before.results after.results := by
  cases grows with
  | stays => exact .refl _
  | goesOn _ _ _ results => exact results

mutual

theorem Grows.trans {first middle last : ElementResult} :
    first.Grows middle → middle.Grows last → first.Grows last
  | .stays, after => after
  | .goesOn isOpen elementId scripts results, after =>
      .goesOn isOpen (after.elementId.trans elementId) (scripts.trans after.scripts)
        (results.trans after.results)

theorem AllGrow.trans {first middle last : List ElementResult} :
    AllGrow first middle → AllGrow middle last → AllGrow first last
  | .nil, _ => .nil
  | .cons before restBefore, .cons after restAfter =>
      .cons (before.trans after) (restBefore.trans restAfter)

end

namespace AllGrow

variable {before after : List ElementResult}

theorem elementIds (grow : AllGrow before after) :
    before.map ElementResult.elementId <+: after.map ElementResult.elementId := by
  induction before generalizing after with
  | nil => exact List.nil_prefix
  | cons result rest ih =>
      cases grow with
      | cons grows restGrows =>
          rw [List.map_cons, List.map_cons, grows.elementId]
          exact List.cons_prefix_cons.mpr ⟨rfl, ih restGrows⟩

theorem getElem? (grow : AllGrow before after) {place : Nat} {node : ElementResult}
    (found : before[place]? = some node) :
    ∃ later, after[place]? = some later ∧ node.Grows later := by
  induction before generalizing after place with
  | nil => simp at found
  | cons result rest ih =>
      cases grow with
      | cons grows restGrows =>
          cases place with
          | zero =>
              obtain rfl : result = node := by simpa using found
              exact ⟨_, rfl, grows⟩
          | succ place => exact ih restGrows found

/-- Whatever a path leads to has become what the path leads to later. -/
theorem nodeAt? (grow : AllGrow before after) {path : ResultPath} {node : ElementResult}
    (found : ElementResult.nodeAt? before path = some node) :
    ∃ later, ElementResult.nodeAt? after path = some later ∧ node.Grows later := by
  induction path generalizing before after with
  | nil => exact nomatch found
  | cons place rest ih =>
      cases rest with
      | nil => exact grow.getElem? found
      | cons next rest =>
          rcases Option.bind_eq_some_iff.mp found with ⟨parent, foundParent, foundBelow⟩
          rcases grow.getElem? foundParent with ⟨laterParent, atPlace, parentGrows⟩
          rcases ih parentGrows.results foundBelow with ⟨later, below, grows⟩
          exact ⟨later, Option.bind_eq_some_iff.mpr ⟨laterParent, atPlace, below⟩, grows⟩

end AllGrow

end ElementResult

/-! ### Traces that are filled in -/

section Fills

variable {σ : Type} {visit : TraceVisit σ}

/-- A trace that stays as it is, or one that was deferred and has its content now. -/
def Trace.Fills (before after : Trace) : Prop :=
  after = before ∨
    before.deferred ∧ ∃ content,
      after = { before with content := some content, deferred := false }

theorem Trace.attach_fills (trace : Trace) (cache : TraceCache) :
    trace.Fills (trace.attach cache).1 := by
  rw [attach]
  split
  · rename_i deferred
    split
    · rename_i content _
      exact .inr ⟨deferred, content, rfl⟩
    · exact .inl rfl
  · exact .inl rfl

/-- A visit that fills traces in and changes nothing else about them. -/
def TraceVisit.Fills (visit : TraceVisit σ) : Prop :=
  ∀ (trace : Trace) (state : σ), trace.Fills (visit trace state).1

/-- A script result that is the same but for traces that have been filled in. -/
def ScriptResult.Fills (before after : ScriptResult) : Prop :=
  ∃ (visit : TraceVisit TraceCache) (cache : TraceCache),
    TraceVisit.Fills visit ∧ (before.visitTraces visit cache).1 = after

/-- An element result that is the same, with all that is below it, but for traces that have been
filled in. -/
def ElementResult.Fills (before after : ElementResult) : Prop :=
  ∃ (visit : TraceVisit TraceCache) (cache : TraceCache),
    TraceVisit.Fills visit ∧ (before.visitTraces visit cache).1 = after

namespace ElementResult

@[simp]
theorem elementId_visitTraces (result : ElementResult) (state : σ) :
    (result.visitTraces visit state).1.elementId = result.elementId := by
  cases result
  rfl

theorem scripts_visitTraces (result : ElementResult) (state : σ) :
    (result.visitTraces visit state).1.scripts =
      (ScriptResult.visitAll visit result.scripts state).1 := by
  cases result
  rfl

theorem exists_results_visitTraces (result : ElementResult) (state : σ) :
    ∃ next,
      (result.visitTraces visit state).1.results = (visitAll visit result.results next).1 := by
  cases result
  exact ⟨_, rfl⟩

theorem elementIds_visitAll (results : List ElementResult) (state : σ) :
    (visitAll visit results state).1.map ElementResult.elementId =
      results.map ElementResult.elementId := by
  induction results generalizing state with
  | nil => rfl
  | cons result rest ih => simp [visitAll, ih]

theorem getElem?_visitAll {results : List ElementResult} {place : Nat} {node : ElementResult}
    (found : results[place]? = some node) (state : σ) :
    ∃ next, (visitAll visit results state).1[place]? = some (node.visitTraces visit next).1 := by
  induction results generalizing place state with
  | nil => simp at found
  | cons result rest ih =>
      cases place with
      | zero =>
          obtain rfl : result = node := by simpa using found
          exact ⟨state, rfl⟩
      | succ place => exact ih found _

theorem nodeAt?_visitAll {results : List ElementResult} {path : ResultPath} {node : ElementResult}
    (found : nodeAt? results path = some node) (state : σ) :
    ∃ next, nodeAt? (visitAll visit results state).1 path =
      some (node.visitTraces visit next).1 := by
  induction path generalizing results state with
  | nil => exact nomatch found
  | cons place rest ih =>
      cases rest with
      | nil => exact getElem?_visitAll found state
      | cons next rest =>
          rcases Option.bind_eq_some_iff.mp found with ⟨parent, foundParent, foundBelow⟩
          rcases getElem?_visitAll foundParent state with ⟨parentState, atPlace⟩
          rcases parent.exists_results_visitTraces parentState with ⟨belowState, visitedResults⟩
          rcases ih foundBelow belowState with ⟨nodeState, below⟩
          refine ⟨nodeState, Option.bind_eq_some_iff.mpr ⟨_, atPlace, ?_⟩⟩
          rw [visitedResults]
          exact below

end ElementResult

theorem ScriptResult.forall₂_fills_visitAll {visit : TraceVisit TraceCache}
    (fills : TraceVisit.Fills visit) (scripts : List ScriptResult) (cache : TraceCache) :
    List.Forall₂ ScriptResult.Fills scripts (visitAll visit scripts cache).1 := by
  induction scripts generalizing cache with
  | nil => exact .nil
  | cons script rest ih => exact .cons ⟨visit, cache, fills, rfl⟩ (ih _)

end Fills

/-! ### Snapshots -/

/-- What has become of an element result. One whose visit was over is the same, and so are the
scripts that it had: what counts as the same is given. -/
structure ElementResult.Evolves (sameScript : ScriptResult → ScriptResult → Prop)
    (same : ElementResult → ElementResult → Prop) (before after : ElementResult) : Prop where
  elementId : after.elementId = before.elementId
  results : before.results.map ElementResult.elementId <+: after.results.map ElementResult.elementId
  scripts : ∃ kept added, after.scripts = kept ++ added ∧
    List.Forall₂ sameScript before.scripts kept
  isFinal : before.stop.isSome → same before after

/-- What has become of the result of a configuration: every path leads to what has become of the
node that it led to. The verdict of the configuration is given once its job has come to the end, and
only then traces are filled in. -/
structure ConfigurationResult.Extends (before after : ConfigurationResult) : Prop where
  results : before.results.map ElementResult.elementId <+: after.results.map ElementResult.elementId
  kept (sameVerdict : after.verdict = before.verdict) {path : ResultPath} {node : ElementResult}
    (found : before.nodeAt? path = some node) :
    ∃ later, after.nodeAt? path = some later ∧ node.Evolves Eq Eq later
  ended (judged : after.verdict ≠ before.verdict) {path : ResultPath} {node : ElementResult}
    (found : before.nodeAt? path = some node) :
    ∃ later, after.nodeAt? path = some later ∧
      node.Evolves ScriptResult.Fills ElementResult.Fills later

theorem ElementResult.Grows.evolves {before after : ElementResult} (grows : before.Grows after) :
    before.Evolves Eq Eq after where
  elementId := grows.elementId
  results := grows.results.elementIds
  scripts := by
    rcases grows.scripts with ⟨added, scripts⟩
    exact ⟨before.scripts, added, scripts.symm, List.forall₂_refl _⟩
  isFinal isOver := (grows.eq_of_stop isOver).symm

theorem ElementResult.Grows.evolves_visitTraces {before after : ElementResult}
    (grows : before.Grows after) {visit : TraceVisit TraceCache}
    (fills : TraceVisit.Fills visit) (cache : TraceCache) :
    before.Evolves ScriptResult.Fills ElementResult.Fills (after.visitTraces visit cache).1 where
  elementId := by simp [grows.elementId]
  results := by
    have visited : ∃ next, (after.visitTraces visit cache).1.results =
        (visitAll visit after.results next).1 := after.exists_results_visitTraces cache
    rcases visited with ⟨next, visitedResults⟩
    rw [visitedResults, elementIds_visitAll]
    exact grows.results.elementIds
  scripts := by
    rcases grows.scripts with ⟨added, scripts⟩
    have filled := List.forall₂_take before.scripts.length
      (ScriptResult.forall₂_fills_visitAll fills after.scripts cache)
    rw [← scripts, List.take_left, scripts, ← scripts_visitTraces] at filled
    exact ⟨_, _, (List.take_append_drop ..).symm, filled⟩
  isFinal isOver := by
    rw [grows.eq_of_stop isOver]
    exact ⟨visit, cache, fills, rfl⟩

/-- How the result of a configuration comes from an earlier one: it has grown, and may have been
brought to its end then, when its traces are filled in. What has been brought to its end stays. -/
inductive ConfigurationResult.Reaches (before after : ConfigurationResult) : Prop
  | grows (isOpen : before.verdict = none) (stillOpen : after.verdict = none)
      (grow : ElementResult.AllGrow before.results after.results) : before.Reaches after
  | ends {grown : List ElementResult} {visit : TraceVisit TraceCache} {cache : TraceCache}
      (isOpen : before.verdict = none) (judged : after.verdict.isSome)
      (grow : ElementResult.AllGrow before.results grown) (fills : TraceVisit.Fills visit)
      (results : after.results = (ElementResult.visitAll visit grown cache).1) :
      before.Reaches after
  | stays (judged : before.verdict.isSome) (sameVerdict : after.verdict = before.verdict)
      (sameResults : after.results = before.results) : before.Reaches after

namespace ConfigurationResult

theorem Reaches.refl (result : ConfigurationResult) : result.Reaches result := by
  cases verdict : result.verdict with
  | none => exact .grows verdict verdict (.refl _)
  | some judged => exact .stays (by simp [verdict]) rfl rfl

theorem Reaches.congr {before after other : ConfigurationResult} (reaches : before.Reaches after)
    (sameVerdict : other.verdict = after.verdict) (sameResults : other.results = after.results) :
    before.Reaches other := by
  cases reaches with
  | grows isOpen stillOpen grow =>
      exact .grows isOpen (sameVerdict.trans stillOpen) (sameResults ▸ grow)
  | ends isOpen judged grow fills results =>
      exact .ends isOpen (sameVerdict ▸ judged) grow fills (sameResults.trans results)
  | stays judged same results =>
      exact .stays judged (sameVerdict.trans same) (sameResults.trans results)

theorem Reaches.grow_of_none {before after : ConfigurationResult} (reaches : before.Reaches after)
    (isOpen : after.verdict = none) :
    before.verdict = none ∧ ElementResult.AllGrow before.results after.results := by
  cases reaches with
  | grows isOpen _ grow => exact ⟨isOpen, grow⟩
  | ends _ judged => simp [isOpen] at judged
  | stays judged sameVerdict => simp [← sameVerdict, isOpen] at judged

theorem Reaches.extends {before after : ConfigurationResult} (reaches : before.Reaches after) :
    before.Extends after := by
  cases reaches with
  | grows isOpen stillOpen grow =>
      refine ⟨grow.elementIds, fun _ path node found => ?_, fun judged => ?_⟩
      · rcases grow.nodeAt? found with ⟨later, foundLater, grows⟩
        exact ⟨later, foundLater, grows.evolves⟩
      · exact absurd (stillOpen.trans isOpen.symm) judged
  | @ends grown visit cache isOpen judged grow fills results =>
      refine ⟨?_, fun sameVerdict => ?_, fun _ path node found => ?_⟩
      · rw [results, ElementResult.elementIds_visitAll]
        exact grow.elementIds
      · simp [sameVerdict, isOpen] at judged
      · rcases grow.nodeAt? found with ⟨middle, foundMiddle, grows⟩
        rcases ElementResult.nodeAt?_visitAll foundMiddle cache with ⟨next, foundLater⟩
        rw [nodeAt?, results]
        exact ⟨_, foundLater, grows.evolves_visitTraces fills next⟩
  | stays judged sameVerdict sameResults =>
      refine ⟨sameResults ▸ List.prefix_rfl, fun _ path node found => ?_, absurd sameVerdict⟩
      · rw [nodeAt?, sameResults]
        exact ⟨node, found, ElementResult.Grows.stays.evolves⟩

end ConfigurationResult

/-! ### Changes that go unnoticed -/

/-- A change that keeps of an element's result what the visits of its siblings look at. -/
structure ElementResult.Unnoticed (change : ElementResult → ElementResult) : Prop where
  elementId : ∀ result, (change result).elementId = result.elementId
  name : ∀ result, (change result).name = result.name
  verdict : ∀ result, (change result).verdict = result.verdict

namespace ElementResult.Unnoticed

variable {change : ElementResult → ElementResult}

theorem predecessorFailure_map (unnoticed : Unnoticed change) (siblings : List ElementResult) :
    predecessorFailure (siblings.map change) = predecessorFailure siblings := by
  rw [predecessorFailure, List.getLast?_map, predecessorFailure]
  cases siblings.getLast? with
  | none => rfl
  | some predecessor => simp [unnoticed.verdict, unnoticed.name]

theorem listedFailure_map (unnoticed : Unnoticed change) (siblings : List ElementResult)
    (dependencies : List String) :
    listedFailure (siblings.map change) dependencies = listedFailure siblings dependencies := by
  have sameSibling (dependency : String) :
      (siblings.map change).reverse.find? (fun sibling => sibling.elementId = dependency) =
        (siblings.reverse.find? fun sibling => sibling.elementId = dependency).map change := by
    rw [← List.map_reverse, List.find?_map]
    simp only [Function.comp_def, unnoticed.elementId]
  rw [listedFailure, listedFailure]
  congr 1
  funext dependency
  rw [sameSibling]
  cases siblings.reverse.find? fun sibling => sibling.elementId = dependency with
  | none => rfl
  | some sibling => simp [unnoticed.verdict, unnoticed.name]

/-- Dependencies go by ids and verdicts. -/
theorem dependencyFailure_map (unnoticed : Unnoticed change) (element : Element) (schema : Schema)
    (isTop : Bool) (siblings : List ElementResult) :
    dependencyFailure element schema isTop (siblings.map change) =
      dependencyFailure element schema isTop siblings := by
  simp only [dependencyFailure, unnoticed.predecessorFailure_map, unnoticed.listedFailure_map]

end ElementResult.Unnoticed

end TestEngine
