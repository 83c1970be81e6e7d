import Mathlib.Logic.Basic
import TestEngine.Result.Path

/-!
# Paths as addresses

Reading a tree of results and appending to it go along a path by recursions of their own. They agree
on what a path leads to: the last step of a path picks one of the children that the rest of it leads
to, and a node is appended behind those. A path therefore never leads to another node than it did,
whatever is appended anywhere, and it is the path of one append only.
-/

namespace TestEngine

/-! ### Trees -/

namespace ElementResult

variable {results after : List ElementResult} {path new other : ResultPath}
  {node added : ElementResult}

theorem nodeAt?_cons_of_ne_nil (results : List ElementResult) (place : Nat)
    (notLast : other ≠ []) :
    nodeAt? results (place :: other) =
      results[place]?.bind fun parent => nodeAt? parent.results other := by
  cases other with
  | nil => exact absurd rfl notLast
  | cons next rest => rfl

/-- The last step of a path picks one of the children that the rest of the path leads to. -/
theorem nodeAt?_concat (results : List ElementResult) (path : ResultPath) (place : Nat) :
    nodeAt? results (path ++ [place]) =
      (childrenAt? results path).bind fun children => children[place]? := by
  induction path generalizing results with
  | nil => rfl
  | cons first rest ih =>
      rw [List.cons_append, nodeAt?_cons_of_ne_nil _ _ (List.concat_ne_nil place rest), childrenAt?,
        Option.bind_assoc]
      exact congrArg _ (funext fun parent => ih parent.results)

theorem childrenAt?_eq_of_ne_nil (results : List ElementResult) (notRoot : path ≠ []) :
    childrenAt? results path = (nodeAt? results path).map ElementResult.results := by
  induction path generalizing results with
  | nil => exact absurd rfl notRoot
  | cons first rest ih =>
      cases rest with
      | nil => cases found : results[first]? <;> simp [childrenAt?, nodeAt?, found]
      | cons next rest =>
          rw [childrenAt?, nodeAt?_cons_of_ne_nil _ _ (List.cons_ne_nil next rest), Option.map_bind]
          exact congrArg _ (funext fun parent => ih parent.results (List.cons_ne_nil next rest))

/-! ### Single appends -/

theorem appendAt?_eq_none_iff :
    appendAt? results added path = none ↔ childrenAt? results path = none := by
  induction path generalizing results with
  | nil => simp [appendAt?, childrenAt?]
  | cons place rest ih => simp [appendAt?, childrenAt?, ih]

/-- What an append below an inner node comes from. -/
theorem appendAt?_cons_eq_some {place : Nat} {rest : ResultPath}
    (appended : appendAt? results added (place :: rest) = some (after, new)) :
    ∃ parent below newBelow, results[place]? = some parent ∧
      appendAt? parent.results added rest = some (below, newBelow) ∧
        after = results.set place { parent with results := below } ∧ new = place :: newBelow := by
  rcases Option.bind_eq_some_iff.mp appended with ⟨parent, found, appendedBelow⟩
  rcases Option.map_eq_some_iff.mp appendedBelow with ⟨⟨below, newBelow⟩, isBelow, same⟩
  rcases Prod.mk.inj same with ⟨rfl, rfl⟩
  exact ⟨parent, below, newBelow, found, isBelow, rfl, rfl⟩

/-- A node is appended behind the children that the path of its parent leads to. -/
theorem appendAt?_eq_some (appended : appendAt? results added path = some (after, new)) :
    ∃ children, childrenAt? results path = some children ∧ new = path ++ [children.length] ∧
      childrenAt? after path = some (children ++ [added]) := by
  induction path generalizing results after new with
  | nil =>
      rcases Prod.mk.inj (Option.some.inj appended) with ⟨rfl, rfl⟩
      exact ⟨results, rfl, rfl, rfl⟩
  | cons place rest ih =>
      rcases appendAt?_cons_eq_some appended with
        ⟨parent, below, newBelow, found, isBelow, rfl, rfl⟩
      have inBounds : place < results.length := (List.getElem?_eq_some_iff.mp found).1
      rcases ih isBelow with ⟨children, hasChildren, rfl, hasAdded⟩
      exact ⟨children, by simpa [childrenAt?, found] using hasChildren, rfl,
        by simpa [childrenAt?, inBounds] using hasAdded⟩

/-- The new path leads to the new node. -/
theorem nodeAt?_new (appended : appendAt? results added path = some (after, new)) :
    nodeAt? after new = some added := by
  rcases appendAt?_eq_some appended with ⟨children, -, rfl, hasAdded⟩
  rw [nodeAt?_concat, hasAdded]
  exact List.getElem?_concat_length

/-! ### Changes along a path -/

theorem modifyAt?_cons_of_ne_nil (results : List ElementResult)
    (change : ElementResult → ElementResult) (place : Nat) (notLast : other ≠ []) :
    modifyAt? results change (place :: other) =
      results[place]?.bind fun parent => (modifyAt? parent.results change other).map fun below =>
        results.set place { parent with results := below } := by
  cases other with
  | nil => exact absurd rfl notLast
  | cons next rest => rfl

/-- A change below a node is a change of the node. -/
theorem modifyAt?_append (results : List ElementResult) (change : ElementResult → ElementResult)
    (notRoot : path ≠ []) (notLast : other ≠ []) :
    modifyAt? results change (path ++ other) =
      (nodeAt? results path).bind fun node =>
        (modifyAt? node.results change other).bind fun below =>
          modifyAt? results (fun _ => { node with results := below }) path := by
  induction path generalizing results with
  | nil => exact absurd rfl notRoot
  | cons place rest ih =>
      have further : rest ++ other ≠ [] := List.append_ne_nil_of_right_ne_nil rest notLast
      rw [List.cons_append, modifyAt?_cons_of_ne_nil _ _ _ further]
      rcases eq_or_ne rest [] with rfl | more
      · cases found : results[place]? <;> simp [nodeAt?, modifyAt?, found, Option.map_eq_bind,
          Function.comp_def]
      · simp only [nodeAt?_cons_of_ne_nil _ _ more, modifyAt?_cons_of_ne_nil _ _ _ more, ih _ more]
        cases found : results[place]? <;> simp [Option.map_bind, Function.comp_def]

/-- To append below a node is to change the node. -/
theorem appendAt?_of_ne_nil (results : List ElementResult) (added : ElementResult)
    (notRoot : path ≠ []) :
    appendAt? results added path =
      (nodeAt? results path).bind fun node =>
        (modifyAt? results (fun _ => { node with results := node.results ++ [added] }) path).map
          fun after => (after, path ++ [node.results.length]) := by
  induction path generalizing results with
  | nil => exact absurd rfl notRoot
  | cons place rest ih =>
      rw [appendAt?]
      rcases eq_or_ne rest [] with rfl | more
      · cases found : results[place]? <;> simp [nodeAt?, modifyAt?, appendAt?, found]
      · simp only [nodeAt?_cons_of_ne_nil _ _ more, modifyAt?_cons_of_ne_nil _ _ _ more, ih _ more]
        cases found : results[place]? <;> simp [Option.map_bind, Function.comp_def]

/-! ### Nodes that stay -/

/-- A node that is the same but for the nodes that have been appended below it. -/
def Keeps (before after : ElementResult) : Prop :=
  ∃ results, after = { before with results } ∧ before.results.length ≤ results.length

theorem Keeps.refl (result : ElementResult) : result.Keeps result :=
  ⟨result.results, by cases result; rfl, Nat.le_refl _⟩

theorem Keeps.trans {before middle after : ElementResult} (first : before.Keeps middle)
    (second : middle.Keeps after) : before.Keeps after := by
  rcases first with ⟨children, rfl, more⟩
  rcases second with ⟨results, rfl, stillMore⟩
  exact ⟨results, rfl, Nat.le_trans more stillMore⟩

theorem length_le_of_appendAt? (appended : appendAt? results added path = some (after, new)) :
    results.length ≤ after.length := by
  cases path with
  | nil =>
      rcases Prod.mk.inj (Option.some.inj appended) with ⟨rfl, -⟩
      simp
  | cons place rest =>
      rcases appendAt?_cons_eq_some appended with ⟨_, _, _, -, -, rfl, -⟩
      simp

/-- An append leaves every path leading to the node that it led to. The node is changed only if the
append takes place at the node itself or below it. -/
theorem nodeAt?_of_appendAt? (appended : appendAt? results added path = some (after, new))
    (found : nodeAt? results other = some node) :
    ∃ later, nodeAt? after other = some later ∧ node.Keeps later ∧
      (¬other <+: path → later = node) := by
  induction path generalizing results after new other with
  | nil =>
      rcases Prod.mk.inj (Option.some.inj appended) with ⟨rfl, rfl⟩
      refine ⟨node, ?_, .refl node, fun _ => rfl⟩
      have atPlace {place : Nat} {parent : ElementResult}
          (isThere : results[place]? = some parent) :
          (results ++ [added])[place]? = some parent := by
        rw [List.getElem?_append_left (List.getElem?_eq_some_iff.mp isThere).1, isThere]
      cases other with
      | nil => exact nomatch found
      | cons place rest =>
          cases rest with
          | nil => exact atPlace found
          | cons next rest =>
              rcases Option.bind_eq_some_iff.mp found with ⟨parent, isThere, foundBelow⟩
              exact Option.bind_eq_some_iff.mpr ⟨parent, atPlace isThere, foundBelow⟩
  | cons place rest ih =>
      rcases appendAt?_cons_eq_some appended with
        ⟨parent, below, newBelow, isThere, isBelow, rfl, rfl⟩
      have inBounds : place < results.length := (List.getElem?_eq_some_iff.mp isThere).1
      cases other with
      | nil => exact nomatch found
      | cons otherPlace otherRest =>
          rcases eq_or_ne otherPlace place with rfl | elsewhere
          · cases otherRest with
            | nil =>
                obtain rfl : parent = node := Option.some.inj (isThere.symm.trans found)
                refine ⟨{ parent with results := below }, by simp [nodeAt?, inBounds],
                  ⟨below, rfl, length_le_of_appendAt? isBelow⟩, fun apart => absurd ?_ apart⟩
                exact (List.prefix_cons_inj otherPlace).mpr List.nil_prefix
            | cons next last =>
                rcases Option.bind_eq_some_iff.mp found with ⟨sameParent, isParent, foundBelow⟩
                obtain rfl : parent = sameParent := Option.some.inj (isThere.symm.trans isParent)
                rcases ih isBelow foundBelow with ⟨later, foundLater, keeps, untouched⟩
                refine ⟨later, ?_, keeps, fun apart => ?_⟩
                · simpa [nodeAt?, inBounds] using foundLater
                · exact untouched fun inside => apart ((List.prefix_cons_inj otherPlace).mpr inside)
          · have sameThere : (results.set place { parent with results := below })[otherPlace]? =
                results[otherPlace]? := List.getElem?_set_ne elsewhere.symm
            refine ⟨node, ?_, .refl node, fun _ => rfl⟩
            cases otherRest <;> simpa only [nodeAt?, sameThere] using found

end ElementResult

/-! ### Histories of appends -/

/-- A node that is to be appended, with the path of the one that it is to be appended below. -/
structure Append where
  parent : ResultPath
  node : ElementResult

namespace ConfigurationResult

/-- What an append makes of the tree. One that is refused leaves it as it is. -/
def appended (result : ConfigurationResult) (append : Append) : ConfigurationResult :=
  ((result.appendAt? append.parent append.node).map Prod.fst).getD result

/-- The path that an append returns, if it is not refused. -/
def newPath? (result : ConfigurationResult) (append : Append) : Option ResultPath :=
  (result.appendAt? append.parent append.node).map Prod.snd

/-- What several appends make of the tree, one after the other. -/
def appendedAll (result : ConfigurationResult) (appends : List Append) : ConfigurationResult :=
  appends.foldl appended result

variable {result : ConfigurationResult} {append : Append} {path : ResultPath}
  {node : ElementResult}

theorem newPath?_eq_some (isNew : result.newPath? append = some path) :
    ElementResult.appendAt? result.results append.node append.parent =
      some ((result.appended append).results, path) := by
  rw [newPath?, appendAt?, Option.map_map] at isNew
  rcases Option.map_eq_some_iff.mp isNew with ⟨⟨results, new⟩, isAppended, rfl⟩
  simp [appended, appendAt?, isAppended]

theorem newPath?_eq_none (refused : result.newPath? append = none) :
    result.appended append = result := by
  rw [newPath?, Option.map_eq_none_iff] at refused
  rw [appended, refused]
  rfl

theorem nodeAt?_appended (append : Append) (found : result.nodeAt? path = some node) :
    ∃ later, (result.appended append).nodeAt? path = some later ∧ node.Keeps later ∧
      (¬path <+: append.parent → later = node) := by
  cases isNew : result.newPath? append with
  | none => exact ⟨node, by rw [newPath?_eq_none isNew, found], .refl node, fun _ => rfl⟩
  | some new => exact ElementResult.nodeAt?_of_appendAt? (newPath?_eq_some isNew) found

/-- Whatever is appended, a path leads on to the node that it led to. -/
theorem nodeAt?_appendedAll (appends : List Append) (found : result.nodeAt? path = some node) :
    ∃ later, (result.appendedAll appends).nodeAt? path = some later ∧ node.Keeps later ∧
      ((∀ append ∈ appends, ¬path <+: append.parent) → later = node) := by
  induction appends generalizing result node with
  | nil => exact ⟨node, found, .refl node, fun _ => rfl⟩
  | cons append rest ih =>
      rcases nodeAt?_appended append found with ⟨middle, foundMiddle, keeps, same⟩
      rcases ih foundMiddle with ⟨later, foundLater, stillKeeps, stillSame⟩
      refine ⟨later, foundLater, keeps.trans stillKeeps, fun apart => ?_⟩
      rw [List.forall_mem_cons] at apart
      exact (stillSame apart.2).trans (same apart.1)

/-- How appends treat paths, from some tree on. -/
structure Addresses (first : ConfigurationResult) (appends : List Append) : Prop where
  /-- An append is refused if and only if it goes below a node that there is not, and then the tree
  stays as it is. Below the root every append succeeds. -/
  refused (earlier : List Append) (append : Append) (later : List Append) :
    appends = earlier ++ append :: later →
      let before := first.appendedAll earlier
      (before.newPath? append = none ↔
        append.parent ≠ [] ∧ before.nodeAt? append.parent = none) ∧
      (before.newPath? append = none → before.appended append = before)
  /-- An append that succeeds returns the place behind the children that its parent had. From then
  on the path leads to the new node, which stays the same unless something is appended below it. -/
  returned (earlier : List Append) (append : Append) (between later : List Append)
      (path : ResultPath) :
    appends = earlier ++ append :: (between ++ later) →
      let before := first.appendedAll earlier
      before.newPath? append = some path →
        (∃ children, before.childrenAt? append.parent = some children ∧
          path = append.parent ++ [children.length]) ∧
        ∃ node, (first.appendedAll (earlier ++ append :: between)).nodeAt? path = some node ∧
          append.node.Keeps node ∧
          ((∀ other ∈ between, ¬path <+: other.parent) → node = append.node)
  /-- No two appends return the same path. -/
  distinct (earlier : List Append) (append : Append) (between : List Append) (other : Append)
      (later : List Append) (path : ResultPath) :
    appends = earlier ++ append :: (between ++ other :: later) →
      (first.appendedAll earlier).newPath? append = some path →
        (first.appendedAll (earlier ++ append :: between)).newPath? other ≠ some path
  /-- What is below a path can be read if and only if the path is the one of the root or leads to a
  node, and it is what the paths with one more step lead to. -/
  children (path : ResultPath) :
    let last := first.appendedAll appends
    ((last.childrenAt? path).isSome ↔ path = [] ∨ (last.nodeAt? path).isSome) ∧
      ∀ children, last.childrenAt? path = some children →
        ∀ place : Nat, children[place]? = last.nodeAt? (path ++ [place])

theorem isSome_childrenAt? (result : ConfigurationResult) (path : ResultPath) :
    (result.childrenAt? path).isSome ↔ path = [] ∨ (result.nodeAt? path).isSome := by
  rcases eq_or_ne path [] with rfl | notRoot
  · simp [childrenAt?, ElementResult.childrenAt?]
  · rw [childrenAt?, ElementResult.childrenAt?_eq_of_ne_nil _ notRoot, nodeAt?]
    simp [notRoot]

theorem newPath?_eq_none_iff :
    result.newPath? append = none ↔
      append.parent ≠ [] ∧ result.nodeAt? append.parent = none := by
  rw [newPath?, appendAt?, Option.map_map, Option.map_eq_none_iff,
    ElementResult.appendAt?_eq_none_iff]
  change result.childrenAt? append.parent = none ↔ _
  rw [← Option.not_isSome_iff_eq_none, isSome_childrenAt?, not_or, Option.not_isSome_iff_eq_none]

/-- In every history of appends, from whatever tree on, paths are addresses. -/
theorem paths_address (first : ConfigurationResult) (appends : List Append) :
    first.Addresses appends where
  refused _ _ _ _ := ⟨newPath?_eq_none_iff, newPath?_eq_none⟩
  returned := by
    rintro earlier append between later path - before isNew
    have appended := newPath?_eq_some isNew
    rcases ElementResult.appendAt?_eq_some appended with ⟨children, hasChildren, isPath, -⟩
    refine ⟨⟨children, hasChildren, isPath⟩, ?_⟩
    have reached : (before.appended append).nodeAt? path = some append.node :=
      ElementResult.nodeAt?_new appended
    have goesOn : first.appendedAll (earlier ++ append :: between) =
        (before.appended append).appendedAll between := List.foldl_append
    rw [goesOn]
    exact nodeAt?_appendedAll between reached
  distinct := by
    rintro earlier append between other later path - isNew isNewAgain
    have reached : ((first.appendedAll earlier).appended append).nodeAt? path = some append.node :=
      ElementResult.nodeAt?_new (newPath?_eq_some isNew)
    have goesOn : first.appendedAll (earlier ++ append :: between) =
        ((first.appendedAll earlier).appended append).appendedAll between := List.foldl_append
    rw [goesOn] at isNewAgain
    rcases nodeAt?_appendedAll between reached with ⟨node, found, -⟩
    -- The path of a new node has led nowhere before.
    rcases ElementResult.appendAt?_eq_some (newPath?_eq_some isNewAgain) with
      ⟨children, hasChildren, rfl, -⟩
    rw [nodeAt?, ElementResult.nodeAt?_concat, hasChildren] at found
    simp at found
  children path := by
    refine ⟨isSome_childrenAt? _ path, fun children hasChildren place => ?_⟩
    rw [nodeAt?, ElementResult.nodeAt?_concat]
    exact (congrArg (Option.bind · (·[place]?)) hasChildren).symm

end ConfigurationResult

end TestEngine
