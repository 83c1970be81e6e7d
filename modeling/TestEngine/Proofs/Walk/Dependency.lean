import TestEngine.Proofs.Order
import TestEngine.Run.Walk

/-!
# Dependencies in a tree of results

What a tree of results tells of the dependencies of its elements. An element that was skipped for
the sake of a dependency says so in its own result, and which dependency it was can be read off the
results of its siblings before it. `Visited.Heeds` says the same by the function that decides it,
and `Visited.Heeds.skipLaw` leads from there to what a reader of the tree sees.
-/

namespace TestEngine

/-- Whether a result says that its element was skipped and not even shown to a tester. -/
def ElementResult.SkippedUnseen (result : ElementResult) : Prop :=
  result.verdict = some .skipped ∧ result.manual = none

/-! ### Elements in a tree -/

/-- An element that was visited, with its result and those of its siblings before it. -/
structure Visited where
  isTop : Bool
  earlier : List ElementResult
  element : Element
  result : ElementResult

namespace Visited

/-- One of the elements of a level, whose results are in the same order. -/
inductive OnLevel (isTop : Bool) :
    (earlier : List ElementResult) → List Element → List ElementResult → Visited → Prop
  | first {earlier results : List ElementResult} {element : Element} {rest : List Element}
      {result : ElementResult} :
      OnLevel isTop earlier (element :: rest) (result :: results) ⟨isTop, earlier, element, result⟩
  | later {earlier results : List ElementResult} {element : Element} {rest : List Element}
      {result : ElementResult} {visited : Visited}
      (onLevel : OnLevel isTop (earlier ++ [result]) rest results visited) :
      OnLevel isTop earlier (element :: rest) (result :: results) visited

/-- An element itself, or one at some depth below it. -/
inductive Holds : Visited → Visited → Prop
  | itself {outer : Visited} : outer.Holds outer
  | deeper {outer child inner : Visited} {children : List Element}
      (order : VisitingOrder Element.order outer.element.children children)
      (onLevel : OnLevel false [] children outer.result.results child) (holds : child.Holds inner) :
      outer.Holds inner

end Visited

/-- One of the elements of a configuration, at some depth, with its place in a tree of results. -/
def Configuration.Visits (configuration : Configuration) (results : List ElementResult)
    (visited : Visited) : Prop :=
  ∃ elements top, VisitingOrder Element.order configuration.elements elements ∧
    Visited.OnLevel true [] elements results top ∧ top.Holds visited

/-! ### What a reader sees -/

/-- A dependency that is not met among the siblings before, and what is said of it. -/
inductive Unmet (earlier : List ElementResult) (dependency : String) : (reason : String) → Prop
  | missing (nobody : ∀ sibling ∈ earlier, sibling.elementId ≠ dependency) :
      Unmet earlier dependency
        ("Skipped because dependency '" ++ dependency ++ "' has no result")
  | failed {before after : List ElementResult} {sibling : ElementResult}
      (isBefore : earlier = before ++ sibling :: after) (isIt : sibling.elementId = dependency)
      (isLatest : ∀ other ∈ after, other.elementId ≠ dependency)
      (notPassed : sibling.verdict ≠ some .passed) :
      Unmet earlier dependency
        ("Skipped because dependency '" ++ sibling.name ++ "' did not pass")

/-- What the result of an element with a schema that its author does not skip, and those of its
siblings before it, say of its dependencies. -/
structure Visited.SkipLaw (visited : Visited) (schema : Schema) : Prop where
  atTop : visited.isTop → ¬visited.result.SkippedUnseen
  unchecked : schema.dependencyCheck = false → ¬visited.result.SkippedUnseen
  predecessor : visited.isTop = false → schema.dependencyCheck →
    schema.dependencyRule = .predecessor →
      (visited.result.SkippedUnseen ↔ ∃ before predecessor,
        visited.earlier = before ++ [predecessor] ∧ predecessor.verdict ≠ some .passed) ∧
      (visited.result.SkippedUnseen → ∃ before predecessor,
        visited.earlier = before ++ [predecessor] ∧ visited.result.message =
          some ("Skipped because predecessor '" ++ predecessor.name ++ "' did not pass"))
  listed : visited.isTop = false → schema.dependencyCheck → schema.dependencyRule = .listed →
      (visited.result.SkippedUnseen ↔
        ∃ dependency ∈ visited.element.dependencies, ∃ reason,
          Unmet visited.earlier dependency reason) ∧
      (visited.result.SkippedUnseen → ∃ met first rest reason,
        visited.element.dependencies = met ++ first :: rest ∧
          (∀ dependency ∈ met, ∀ reason, ¬Unmet visited.earlier dependency reason) ∧
          Unmet visited.earlier first reason ∧ visited.result.message = some reason)
  untouched : visited.result.SkippedUnseen →
    visited.result.results = [] ∧ visited.result.scripts = []

/-! ### What decides it -/

/-- A result that says that its element was skipped for a reason, and that holds nothing else. -/
structure ElementResult.SkippedFor (result : ElementResult) (reason : String) : Prop where
  skipped : result.SkippedUnseen
  message : result.message = some reason
  noResults : result.results = []
  noScripts : result.scripts = []

/-- Whether the result of an element is what its dependencies ask for, unless its author skips it or
nothing says how to visit it. -/
def Visited.Heeds (visited : Visited) : Prop :=
  ∀ schema, visited.element.schema = some schema → ¬(schema.skippable && visited.element.skip) →
    match dependencyFailure visited.element schema visited.isTop visited.earlier with
    | some reason => visited.result.SkippedFor reason
    | none => ¬visited.result.SkippedUnseen

theorem predecessorFailure_eq_some {earlier : List ElementResult} {reason : String} :
    predecessorFailure earlier = some reason ↔ ∃ before predecessor,
      earlier = before ++ [predecessor] ∧ predecessor.verdict ≠ some .passed ∧
        reason = "Skipped because predecessor '" ++ predecessor.name ++ "' did not pass" := by
  rw [predecessorFailure, Option.bind_eq_some_iff]
  constructor
  · rintro ⟨predecessor, isLast, failed⟩
    split at failed
    · exact nomatch failed
    · rename_i notPassed
      rcases List.getLast?_eq_some_iff.mp isLast with ⟨before, isBefore⟩
      exact ⟨before, predecessor, isBefore, notPassed, (Option.some.inj failed).symm⟩
  · rintro ⟨before, predecessor, rfl, notPassed, rfl⟩
    exact ⟨predecessor, List.getLast?_concat, if_neg notPassed⟩

/-- What the walk says of one dependency: the sibling that counts is the latest of the id. -/
def unmetReason? (earlier : List ElementResult) (dependency : String) : Option String :=
  match earlier.reverse.find? fun sibling => sibling.elementId = dependency with
  | some sibling =>
    if sibling.verdict = some .passed then none
    else some ("Skipped because dependency '" ++ sibling.name ++ "' did not pass")
  | none => some ("Skipped because dependency '" ++ dependency ++ "' has no result")

theorem listedFailure_eq (earlier : List ElementResult) (dependencies : List String) :
    listedFailure earlier dependencies = dependencies.findSome? (unmetReason? earlier) := rfl

/-- The latest sibling of an id is the one behind which there is none. -/
theorem find?_reverse_eq_some {earlier : List ElementResult} {dependency : String}
    {sibling : ElementResult} :
    (earlier.reverse.find? fun sibling => sibling.elementId = dependency) = some sibling ↔
      ∃ before after, earlier = before ++ sibling :: after ∧ sibling.elementId = dependency ∧
        ∀ other ∈ after, other.elementId ≠ dependency := by
  rw [List.find?_eq_some_iff_append]
  constructor
  · rintro ⟨isIt, after, before, isBefore, others⟩
    refine ⟨before.reverse, after.reverse, ?_, by simpa using isIt, ?_⟩
    · rw [List.reverse_eq_iff] at isBefore
      simp [isBefore]
    · simpa using others
  · rintro ⟨before, after, rfl, isIt, others⟩
    exact ⟨by simpa using isIt, after.reverse, before.reverse, by simp, by simpa using others⟩

theorem unmetReason?_eq_some {earlier : List ElementResult} {dependency reason : String} :
    unmetReason? earlier dependency = some reason ↔ Unmet earlier dependency reason := by
  rw [unmetReason?]
  constructor
  · intro failed
    split at failed
    · rename_i sibling isLatest
      split at failed
      · exact nomatch failed
      · rename_i notPassed
        rcases find?_reverse_eq_some.mp isLatest with ⟨before, after, isBefore, isIt, others⟩
        obtain rfl := Option.some.inj failed
        exact .failed isBefore isIt others notPassed
    · rename_i nobody
      obtain rfl := Option.some.inj failed
      exact .missing (by simpa using nobody)
  · rintro (nobody | ⟨isBefore, isIt, others, notPassed⟩)
    · have noSibling :
          (earlier.reverse.find? fun sibling => sibling.elementId = dependency) = none := by
        simpa using nobody
      rw [noSibling]
    · rw [find?_reverse_eq_some.mpr ⟨_, _, isBefore, isIt, others⟩]
      exact if_neg notPassed

theorem listedFailure_eq_some {earlier : List ElementResult} {dependencies : List String}
    {reason : String} :
    listedFailure earlier dependencies = some reason ↔ ∃ met first rest,
      dependencies = met ++ first :: rest ∧
        (∀ dependency ∈ met, ∀ reason, ¬Unmet earlier dependency reason) ∧
        Unmet earlier first reason := by
  have met_iff (dependency : String) :
      unmetReason? earlier dependency = none ↔ ∀ reason, ¬Unmet earlier dependency reason := by
    simp only [Option.eq_none_iff_forall_ne_some, ne_eq, unmetReason?_eq_some]
  rw [listedFailure_eq, List.findSome?_eq_some_iff]
  simp only [unmetReason?_eq_some, met_iff]
  constructor
  · rintro ⟨met, first, rest, isFirst, unmet, others⟩
    exact ⟨met, first, rest, isFirst, others, unmet⟩
  · rintro ⟨met, first, rest, isFirst, others, unmet⟩
    exact ⟨met, first, rest, isFirst, unmet, others⟩

theorem exists_unmet_of_listedFailure {earlier : List ElementResult} {dependencies : List String} :
    (listedFailure earlier dependencies).isSome ↔
      ∃ dependency ∈ dependencies, ∃ reason, Unmet earlier dependency reason := by
  rw [listedFailure_eq, List.isSome_findSome?]
  simp [Option.isSome_iff_exists, unmetReason?_eq_some]

/-! ### From the function to the tree -/

namespace Visited

variable {visited : Visited} {schema : Schema}

theorem Heeds.skippedUnseen_iff (heeds : visited.Heeds)
    (hasSchema : visited.element.schema = some schema)
    (authorRuns : ¬(schema.skippable && visited.element.skip)) :
    visited.result.SkippedUnseen ↔
      (dependencyFailure visited.element schema visited.isTop visited.earlier).isSome := by
  have heeds := heeds schema hasSchema authorRuns
  split at heeds
  · rename_i reason failure
    exact iff_of_true heeds.skipped (by rw [failure]; rfl)
  · rename_i noFailure
    exact iff_of_false heeds (by rw [noFailure]; decide)

theorem Heeds.exists_skippedFor (heeds : visited.Heeds)
    (hasSchema : visited.element.schema = some schema)
    (authorRuns : ¬(schema.skippable && visited.element.skip))
    (skipped : visited.result.SkippedUnseen) :
    ∃ reason, dependencyFailure visited.element schema visited.isTop visited.earlier =
      some reason ∧ visited.result.SkippedFor reason := by
  have heeds := heeds schema hasSchema authorRuns
  split at heeds
  · rename_i reason failure
    exact ⟨reason, failure, heeds⟩
  · exact absurd skipped heeds

/-- A result that heeds the dependencies of its element tells a reader of them. -/
theorem Heeds.skipLaw (heeds : visited.Heeds) (hasSchema : visited.element.schema = some schema)
    (authorRuns : ¬(schema.skippable && visited.element.skip)) : visited.SkipLaw schema where
  atTop isTop skipped := by
    rcases heeds.exists_skippedFor hasSchema authorRuns skipped with ⟨reason, failure, -⟩
    simp [dependencyFailure, isTop] at failure
  unchecked unchecked skipped := by
    rcases heeds.exists_skippedFor hasSchema authorRuns skipped with ⟨reason, failure, -⟩
    simp [dependencyFailure, unchecked] at failure
  predecessor notTop checked rule := by
    have decides : dependencyFailure visited.element schema visited.isTop visited.earlier =
        predecessorFailure visited.earlier := by simp [dependencyFailure, notTop, checked, rule]
    constructor
    · rw [heeds.skippedUnseen_iff hasSchema authorRuns, decides, Option.isSome_iff_exists]
      constructor
      · rintro ⟨reason, failure⟩
        rcases predecessorFailure_eq_some.mp failure with
          ⟨before, predecessor, isBefore, notPassed, -⟩
        exact ⟨before, predecessor, isBefore, notPassed⟩
      · rintro ⟨before, predecessor, isBefore, notPassed⟩
        exact ⟨_, predecessorFailure_eq_some.mpr ⟨before, predecessor, isBefore, notPassed, rfl⟩⟩
    · intro skipped
      rcases heeds.exists_skippedFor hasSchema authorRuns skipped with ⟨reason, failure, skippedFor⟩
      rcases predecessorFailure_eq_some.mp (decides ▸ failure) with
        ⟨before, predecessor, isBefore, -, rfl⟩
      exact ⟨before, predecessor, isBefore, skippedFor.message⟩
  listed notTop checked rule := by
    have decides : dependencyFailure visited.element schema visited.isTop visited.earlier =
        listedFailure visited.earlier visited.element.dependencies := by
      simp [dependencyFailure, notTop, checked, rule]
    constructor
    · rw [heeds.skippedUnseen_iff hasSchema authorRuns, decides, exists_unmet_of_listedFailure]
    · intro skipped
      rcases heeds.exists_skippedFor hasSchema authorRuns skipped with ⟨reason, failure, skippedFor⟩
      rcases listedFailure_eq_some.mp (decides ▸ failure) with
        ⟨met, first, rest, isFirst, others, unmet⟩
      exact ⟨met, first, rest, reason, isFirst, others, unmet, skippedFor.message⟩
  untouched skipped := by
    rcases heeds.exists_skippedFor hasSchema authorRuns skipped with ⟨reason, -, skippedFor⟩
    exact ⟨skippedFor.noResults, skippedFor.noScripts⟩

end Visited

end TestEngine
