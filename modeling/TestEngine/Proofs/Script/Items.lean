import TestEngine.Proofs.Script.FailFast
import TestEngine.Proofs.Script.Footprint
import TestEngine.Proofs.Script.Round

/-!
# Loops over the items of a list

A loop over a list fails, and does nothing else, if there is no list under its name or if the name
for the items is in use. Otherwise it takes the items that the list has at that moment, and what
becomes of the list afterwards does not matter: the body is visited for one item after the other,
each time with a copy of the item under its name, until there are no more of them or a visit does
not lead on. The name is free again when the loop is over.
-/

namespace TestEngine

variable {ν : Type}

/-! ### Lists that can be gone through -/

/-- The store has a list of items under a name, and the name that each of them gets is free. -/
structure Store.Lists (store : Store) (list element : String) (items : List Property) : Prop where
  listed : ∃ property, store.get? list = some property ∧ property.value = .list items
  free : store.get? element = none

theorem Property.items?_eq_some_iff {property : Property} {items : List Property} :
    property.items? = some items ↔ property.value = .list items := by
  unfold items?
  constructor
  · intro hasItems
    split at hasItems
    · rename_i isList
      rw [isList, Option.some.inj hasItems]
    · exact nomatch hasItems
  · intro isList
    rw [isList]

/-- A loop has items to go through exactly if the store lists them. -/
theorem Visit.foreachItems_eq_ok_iff {store : Store} {list element : String}
    {items : List Property} :
    foreachItems store list element = .ok items ↔ store.Lists list element items := by
  constructor
  · intro found
    refine ⟨?_, get?_of_foreachItems found⟩
    unfold foreachItems at found
    split at found
    case h_2 => exact nomatch found
    case h_1 property hasProperty =>
      split at found
      case h_2 => exact nomatch found
      case h_1 hasItems =>
        split at found
        · exact nomatch found
        · cases found
          exact ⟨property, hasProperty, Property.items?_eq_some_iff.mp hasItems⟩
  · rintro ⟨⟨property, hasProperty, isList⟩, free⟩
    simp [foreachItems, hasProperty, Property.items?_eq_some_iff.mpr isList, NameMap.contains, free]
    rfl

theorem Visit.foreachItems_eq_error {store : Store} {list element : String} {error : EngineError}
    (failed : foreachItems store list element = .error error) :
    ∃ message, error = .property message := by
  unfold foreachItems at failed
  split at failed
  case h_2 =>
    cases failed
    exact ⟨_, rfl⟩
  case h_1 =>
    split at failed
    case h_2 =>
      cases failed
      exact ⟨_, rfl⟩
    case h_1 =>
      split at failed
      · cases failed
        exact ⟨_, rfl⟩
      · exact nomatch failed

/-! ### Rounds -/

/-- How rounds go through items, one for each of them, as long as the visits of the body lead on. -/
structure Round.GoThrough (element : String) (items : List Property) (rounds : List (Round ν))
    (outcome : Except Abort Flow) : Prop where
  /-- Each round belongs to the item at its place, and starts with a copy of it under the name. -/
  item (place : Nat) (round : Round ν) : rounds[place]? = some round →
    ∃ item, items[place]? = some item ∧
      round.start.context.properties.get? element = some (item.renamed element)
  /-- A round with another one behind it has led on. -/
  ledOn (place : Nat) (round : Round ν) : rounds[place]? = some round →
    place + 1 < rounds.length → round.outcome = .ok .next
  /-- An item is left out only if the last round did not lead on. -/
  leftOut : rounds.length < items.length → ∃ last ∈ rounds.getLast?, last.outcome ≠ .ok .next
  /-- The loop stops as a round does that is stopped. -/
  stopped (round : Round ν) (reason : Abort) : round ∈ rounds → round.outcome = .error reason →
    outcome = .error reason
  /-- A loop that is not stopped goes well, be it left or not. -/
  well : (∀ round ∈ rounds, ∀ reason, round.outcome ≠ .error reason) → outcome = .ok .next

section Rounds

variable {element : String} {items : List Property} {body : Visit Flow} {frame reached : Frame}
  {rounds : List (Round ν)} {outcome : Except Abort Flow}

theorem TakesItem.bound {place : Nat} {round : Round ν}
    (takes : TakesItem element items body place frame round) :
    ∃ item, items[place]? = some item ∧
      round.start.context.properties.get? element = some (item.renamed element) := by
  rcases takes.start with ⟨item, hasItem, start⟩
  refine ⟨item, hasItem, ?_⟩
  rw [start]
  simp [Frame.put, Store.put]

theorem Repeats.goThrough
    (repeats : Repeats (TakesItem element items body) (QuitsItems items) 0 frame rounds [] outcome
      reached) : Round.GoThrough element items rounds outcome := by
  have item (place : Nat) (round : Round ν) (hasRound : rounds[place]? = some round) :
      ∃ item, items[place]? = some item ∧
        round.start.context.properties.get? element = some (item.renamed element) := by
    rcases repeats.getElem? hasRound with ⟨frame, takes⟩
    exact (Nat.zero_add place ▸ takes).bound
  rcases repeats.ends with ⟨allLedOn, quits⟩ | ⟨front, last, rfl, frontLedOn, cuts, -, -⟩
  · -- No round was the last one by itself, so the items are used up.
    cases quits with
    | usedUp all =>
        constructor
        case item => exact item
        case ledOn =>
          intro place round hasRound _
          exact allLedOn round (List.mem_of_getElem? hasRound)
        case leftOut => omega
        case stopped =>
          intro round reason roundMem stopped
          exact nomatch (allLedOn round roundMem).symm.trans stopped
        case well => exact fun _ => rfl
  · have notNext : last.outcome ≠ .ok .next := by
      cases cuts with
      | left left => simp [left]
      | stopped stopped => simp [stopped]
    constructor
    case item => exact item
    case ledOn =>
      intro place round hasRound before
      rw [List.length_append, List.length_singleton, Nat.add_lt_add_iff_right] at before
      rw [List.getElem?_append_left before] at hasRound
      exact frontLedOn round (List.mem_of_getElem? hasRound)
    case leftOut => exact fun _ => ⟨last, by simp, notNext⟩
    case stopped =>
      intro round reason roundMem stopped
      rcases List.mem_append.mp roundMem with inFront | isLast
      · exact nomatch (frontLedOn round inFront).symm.trans stopped
      · obtain rfl := List.mem_singleton.mp isLast
        cases cuts with
        | left left => exact nomatch left.symm.trans stopped
        | stopped same => rw [← same, stopped]
    case well =>
      intro unstopped
      cases cuts with
      | left => rfl
      | stopped stopped => exact absurd stopped (unstopped last (by simp) _)

end Rounds

/-! ### The loop -/

/-- A loop over a list fails at once, with all as it was, or it goes through the items that the list
has when it starts. The name that these get is free in the end; only a crash leaves nothing to say
of it. -/
theorem Visit.foreach_goes_through (list element : String) (body : Visit Flow) (frame : Frame) :
    ((¬∃ items, frame.context.properties.Lists list element items) →
      ∃ message, ∀ (history : List (Exchange ν)) (outcome : Except Abort Flow) (after : Frame),
        (foreach list element body).Yields frame history outcome after ↔
          history = [] ∧ outcome = .error (.failed (.property message)) ∧ after = frame) ∧
    ∀ items, frame.context.properties.Lists list element items →
      ∀ (history : List (Exchange ν)) (outcome : Except Abort Flow) (after : Frame),
        (foreach list element body).Yields frame history outcome after →
          ∃ rounds reached, history = rounds.flatMap Round.history ∧
            Repeats (TakesItem element items body) (QuitsItems items) 0 frame rounds [] outcome
              reached ∧
            Round.GoThrough element items rounds outcome ∧
            (outcome ≠ .error .crashed → after.context.properties.get? element = none) := by
  constructor
  · intro noItems
    cases hasItems : foreachItems frame.context.properties list element with
    | ok items => exact absurd ⟨items, foreachItems_eq_ok_iff.mp hasItems⟩ noItems
    | error error =>
        rcases foreachItems_eq_error hasItems with ⟨message, rfl⟩
        refine ⟨message, fun history outcome after => ?_⟩
        rw [foreach, yields_store_bind, hasItems]
        exact yields_abort
  · intro items lists history outcome after yields
    have hasItems := foreachItems_eq_ok_iff.mpr lists
    rcases yields_foreach yields with ⟨error, failed, -⟩ |
      ⟨found, rounds, reached, hasFound, split, repeats, rfl⟩
    · cases hasItems.symm.trans failed
    · obtain rfl : items = found := Except.ok.inj (hasItems.symm.trans hasFound)
      refine ⟨rounds, reached, split, repeats, repeats.goThrough, fun notCrashed => ?_⟩
      change (unbind element outcome reached.context.properties).get? element = none
      rw [Visit.unbind_of_ne notCrashed, NameMap.get?_erase, if_pos rfl]

/-- A body that writes its item as a line, and then deletes the list and the item. -/
def Visit.ravaging : Visit Flow := siblings (Step.visits .logging
  [⟨"t", 1, .textMessage ⟨"", some "item"⟩⟩,
    ⟨"l", 2, .propertyAction ⟨.delete, "list", none, none, none⟩⟩,
    ⟨"i", 3, .propertyAction ⟨.delete, "item", none, none, none⟩⟩])

/-- A frame with a list of two items. -/
def Frame.listing : Frame :=
  ⟨.ofProperties [.of "list" (.list [.ofString "a" "x", .ofString "b" "y"])], [], []⟩

/-- The items are gone through without their list; where there is none, the loop fails. -/
theorem Visit.ravaging_goes_through :
    let told := ((foreach "list" "item" ravaging).run.run Frame.listing).tell Request.refused
    ((¬∃ items, Frame.listing.context.properties.Lists "other" "item" items) ∧
      ∃ message, ∀ (history : List (Exchange Unit)) (outcome : Except Abort Flow) (after : Frame),
        (foreach "other" "item" ravaging).Yields .listing history outcome after ↔
          history = [] ∧ outcome = .error (.failed (.property message)) ∧ after = .listing) ∧
    (Frame.listing.context.properties.Lists "list" "item" [.ofString "a" "x", .ofString "b" "y"] ∧
      ∃ rounds reached, told.1 = rounds.flatMap Round.history ∧
        Repeats (TakesItem "item" [.ofString "a" "x", .ofString "b" "y"] ravaging)
          (QuitsItems [.ofString "a" "x", .ofString "b" "y"]) 0 .listing rounds [] told.2.1
            reached ∧
        Round.GoThrough "item" [.ofString "a" "x", .ofString "b" "y"] rounds told.2.1 ∧
        (told.2.1 ≠ .error .crashed →
          told.2.2.context.properties.get? "item" = none)) ∧
    told.2.2.log.map LogEntry.message = ["x", "y"] := by
  have noOther : ¬∃ items, Frame.listing.context.properties.Lists "other" "item" items := by
    rintro ⟨items, ⟨property, hasProperty, -⟩, -⟩
    exact nomatch hasProperty
  have lists : Frame.listing.context.properties.Lists "list" "item"
      [.ofString "a" "x", .ofString "b" "y"] := ⟨⟨_, rfl, rfl⟩, rfl⟩
  exact ⟨⟨noOther, (foreach_goes_through "other" "item" ravaging .listing).1 noOther⟩,
    ⟨lists, (foreach_goes_through "list" "item" ravaging .listing).2 _ lists _ _ _
      (Program.yields_tell Request.refused _)⟩, by decide +kernel⟩

end TestEngine
