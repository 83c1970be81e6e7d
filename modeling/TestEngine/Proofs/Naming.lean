import TestEngine.Proofs.ContextLaw
import TestEngine.Proofs.Exchange
import TestEngine.Proofs.NameMap
import TestEngine.Proofs.Script.FailFast

/-!
# Names of cells

A cell of a store has a name of its own beside the name that it is stored under, and whatever enters
a cell under another name has to rename it: a scope, a copy, the items of a foreach, the index of a
loop. All of them do, so the two names agree in every context that comes about, and every backend
that is called is given such a context.
-/

namespace TestEngine

/-! ### Tables -/

namespace NameMap

variable {α : Type} {name : String} {entry : α}

theorem replace_eq_append {entries : List (String × α)} (absent : lookup name entries = none)
    (entry : α) : replace name entry entries = entries ++ [(name, entry)] := by
  induction entries with
  | nil => rfl
  | cons head rest ih =>
      rw [lookup] at absent
      split at absent
      · cases absent
      · rename_i notSame
        rw [replace, if_neg notSame, ih absent, List.cons_append]

theorem mem_names_replace {entries : List (String × α)} {other : String} :
    other ∈ (replace name entry entries).map Prod.fst ↔
      other = name ∨ other ∈ entries.map Prod.fst := by
  induction entries with
  | nil => simp [replace]
  | cons head rest ih =>
      rw [replace]
      split
      · rename_i same
        simp [same]
      · simp only [List.map_cons, List.mem_cons, ih]
        exact or_left_comm

theorem nodup_names_insert {table : NameMap α} (unique : table.names.Nodup) (name : String)
    (entry : α) : (table.insert name entry).names.Nodup := by
  rcases table with ⟨entries⟩
  change ((replace name entry entries).map Prod.fst).Nodup
  change (entries.map Prod.fst).Nodup at unique
  induction entries with
  | nil => simp [replace]
  | cons head rest ih =>
      rcases List.nodup_cons.mp unique with ⟨headNew, restUnique⟩
      rw [replace]
      split
      · rename_i same
        exact List.nodup_cons.mpr ⟨same ▸ headNew, restUnique⟩
      · rename_i notSame
        refine List.nodup_cons.mpr ⟨fun headMem => ?_, ih restUnique⟩
        exact (mem_names_replace.mp headMem).elim notSame headNew

theorem nodup_names_erase {table : NameMap α} (unique : table.names.Nodup) (name : String) :
    (table.erase name).names.Nodup :=
  unique.sublist (List.filter_sublist.map Prod.fst)

theorem lookup_eq_none_of_not_mem {entries : List (String × α)}
    (absent : name ∉ entries.map Prod.fst) : lookup name entries = none := by
  induction entries with
  | nil => rfl
  | cons head rest ih =>
      rw [List.map_cons, List.mem_cons, not_or] at absent
      rw [lookup, if_neg (Ne.symm absent.1), ih absent.2]

/-- To take an entry out and enter it again changes nothing but the place that it has. -/
theorem entries_insert_erase_perm {table : NameMap α} (unique : table.names.Nodup)
    (found : table.get? name = some entry) :
    ((table.erase name).insert name entry).entries.Perm table.entries := by
  rcases table with ⟨entries⟩
  change (replace name entry (entries.filter fun other => other.1 ≠ name)).Perm entries
  change (entries.map Prod.fst).Nodup at unique
  change lookup name entries = some entry at found
  have erased : lookup name (entries.filter fun other => other.1 ≠ name) = none := by
    rw [lookup_filter_ne, if_pos rfl]
  rw [replace_eq_append erased]
  clear erased
  induction entries with
  | nil => exact nomatch found
  | cons head rest ih =>
      rcases head with ⟨other, old⟩
      rcases List.nodup_cons.mp unique with ⟨headNew, restUnique⟩
      rw [lookup] at found
      split at found
      · rename_i same
        obtain rfl : other = name := same
        obtain rfl := Option.some.inj found
        have restKept : ((other, old) :: rest).filter (fun entry => entry.1 ≠ other) = rest := by
          rw [List.filter_cons_of_neg (by simp)]
          exact filter_eq_self (lookup_eq_none_of_not_mem headNew)
        rw [restKept]
        exact List.perm_append_singleton (other, old) rest
      · rename_i notSame
        simpa [notSame] using ih restUnique found

end NameMap

/-! ### Stores -/

/-- A store with one cell for a name, and each cell with the name that it is stored under. -/
structure Store.IsWellNamed (store : Store) : Prop where
  unique : store.names.Nodup
  named {name : String} {cell : Property} (found : store.get? name = some cell) : cell.name = name

namespace Store.IsWellNamed

variable {store : Store}

theorem empty : IsWellNamed .empty where
  unique := List.nodup_nil
  named found := nomatch found

theorem insert (wellNamed : store.IsWellNamed) {name : String} {cell : Property}
    (isNamed : cell.name = name) : IsWellNamed (store.insert name cell) where
  unique := NameMap.nodup_names_insert wellNamed.unique name cell
  named := by
    intro other found isFound
    rw [NameMap.get?_insert] at isFound
    split at isFound
    · rename_i same
      rw [← Option.some.inj isFound, isNamed, same]
    · exact wellNamed.named isFound

theorem put (wellNamed : store.IsWellNamed) (property : Property) :
    (store.put property).IsWellNamed := wellNamed.insert rfl

theorem erase (wellNamed : store.IsWellNamed) (name : String) : IsWellNamed (store.erase name) where
  unique := NameMap.nodup_names_erase wellNamed.unique name
  named := by
    intro other cell found
    rw [NameMap.get?_erase] at found
    split at found
    · exact nomatch found
    · exact wellNamed.named found

theorem merge (wellNamed : store.IsWellNamed) (properties : List Property) :
    (store.merge properties).IsWellNamed := by
  induction properties generalizing store with
  | nil => exact wellNamed
  | cons property rest ih => exact ih (wellNamed.put property)

theorem mergeScoped (wellNamed : store.IsWellNamed) (scope : String) (properties : List Property) :
    (store.mergeScoped scope properties).IsWellNamed := wellNamed.merge _

theorem name_setLiteral {property changed : Property} {literal : String}
    (isSet : property.setLiteral literal = .ok changed) : changed.name = property.name := by
  rw [Property.setLiteral] at isSet
  cases read : Value.ofLiteral property.kind literal with
  | error problem => exact nomatch read ▸ isSet
  | ok value =>
      rw [read] at isSet
      rw [← Except.ok.inj isSet]

theorem setTo (wellNamed : store.IsWellNamed) (target : String) (literal : Option String)
    (kind : Option PropertyKind) :
    (PropertyAction.setTo store target literal kind).1.IsWellNamed := by
  have isNamed : ((store.get? target).getD (.of target (.null (kind.getD .string)))).name =
      target := by
    cases found : store.get? target with
    | none => rfl
    | some cell => exact wellNamed.named found
  unfold PropertyAction.setTo
  split
  · exact wellNamed
  · dsimp only
    split
    · rename_i changed isSet
      exact wellNamed.insert ((name_setLiteral isSet).trans isNamed)
    · exact wellNamed.insert isNamed

theorem copyTo (wellNamed : store.IsWellNamed) {target : String} {source : Option String}
    {copied : Store} (copies : PropertyAction.copyTo store target source = .ok copied) :
    copied.IsWellNamed := by
  unfold PropertyAction.copyTo at copies
  split at copies
  case h_2 => exact nomatch copies
  case h_1 =>
    split at copies
    case h_2 => exact nomatch copies
    case h_1 =>
      split at copies
      · cases copies
        exact wellNamed.put _
      · rename_i old hadTarget
        split at copies
        · cases copies
          have isNamed : old.name = target := wellNamed.named hadTarget
          exact wellNamed.insert isNamed
        · exact nomatch copies

/-- A property action, failing or not, leaves each cell under its name. -/
theorem apply (wellNamed : store.IsWellNamed) (action : PropertyAction) :
    (action.apply store).1.IsWellNamed := by
  unfold PropertyAction.apply
  cases action.verb with
  | clear =>
      dsimp only
      split
      · rename_i cell found
        have isNamed : cell.name = action.target := wellNamed.named found
        exact wellNamed.insert isNamed
      · exact wellNamed
  | delete => exact wellNamed.erase action.target
  | copy =>
      dsimp only
      split
      · rename_i copied copies
        exact wellNamed.copyTo copies
      · exact wellNamed
  | set => exact wellNamed.setTo _ _ _

end Store.IsWellNamed

/-! ### Runs -/

/-- The protocol of runs that call backends with cells under their own names only. -/
def naming : Protocol Unit where
  allows _ request := ∀ call, request = .perform call → call.context.properties.IsWellNamed
  after _ _ _ := ()

theorem naming_law :
    ContextLaw naming fun context _ => context.properties.IsWellNamed where
  ask wellNamed request aside :=
    ⟨fun call performs => (nomatch performs ▸ aside), fun _ => wellNamed⟩
  perform wellNamed := by
    refine ⟨fun call performs => ?_, fun _ => wellNamed⟩
    rw [← Request.perform.inj performs]
    exact wellNamed
  enterScript wellNamed _ := ⟨fun _ performs => (nomatch performs), wellNamed⟩
  enterStep wellNamed _ := ⟨fun _ performs => (nomatch performs), wellNamed⟩
  put wellNamed property := wellNamed.put property
  erase wellNamed name := wellNamed.erase name
  apply wellNamed action := wellNamed.apply action

/-! ### Contexts -/

/-- The context with another store. -/
def Context.withStore (context : Context) (properties : Store) : Context :=
  { context with properties }

/-- The contexts that come about: by the changes that can be made to a context from outside, and by
runs, however the capabilities answer. -/
inductive Context.Reached : Context → Prop
  | new (properties : List Property) : Reached (.ofProperties properties)
  /-- Who acts, what the backends are set to and where the run is do not matter. -/
  | settle {context other : Context} (reached : context.Reached)
      (same : other.properties = context.properties) : Reached other
  | insert {context : Context} (reached : context.Reached) (property : Property) :
      Reached (context.withStore (context.properties.put property))
  | remove {context : Context} (reached : context.Reached) (name : String) :
      Reached (context.withStore (context.properties.erase name))
  | merge {context : Context} (reached : context.Reached) (properties : List Property) :
      Reached (context.withStore (context.properties.merge properties))
  | mergeScoped {context : Context} (reached : context.Reached) (scope : String)
      (properties : List Property) :
      Reached (context.withStore (context.properties.mergeScoped scope properties))
  | set {context : Context} (reached : context.Reached) {name literal : String}
      {cell changed : Property} (found : context.properties.get? name = some cell)
      (isSet : cell.setLiteral literal = .ok changed) :
      Reached (context.withStore (context.properties.insert name changed))
  | clear {context : Context} (reached : context.Reached) {name : String} {cell : Property}
      (found : context.properties.get? name = some cell) :
      Reached (context.withStore (context.properties.insert name cell.cleared))
  | script {context : Context} (reached : context.Reached) (setting : Setting) (script : Script)
      {history : List (Exchange Unit)} {ran : ScriptRun}
      (yields : (script.run setting context).Yields history ran) : Reached ran.context
  | configuration {context : Context} (reached : context.Reached) (setting : Setting)
      (configuration : Configuration) {history : List (Exchange Unit)} {ran : ConfigurationRun}
      (yields : (configuration.run setting context).Yields history ran) : Reached ran.context

namespace Context.Reached

variable {context : Context}

theorem isWellNamed (reached : context.Reached) : context.properties.IsWellNamed := by
  induction reached with
  | new properties => exact Store.IsWellNamed.empty.merge properties
  | settle _ same ih => exact same ▸ ih
  | insert _ property ih => exact ih.put property
  | remove _ name ih => exact ih.erase name
  | merge _ properties ih => exact ih.merge properties
  | mergeScoped _ scope properties ih => exact ih.mergeScoped scope properties
  | set _ found isSet ih =>
      exact ih.insert ((Store.IsWellNamed.name_setLiteral isSet).trans (ih.named found))
  | @clear _ _ name cell found ih =>
      have isNamed : cell.name = name := ih.named found
      exact ih.insert isNamed
  | script _ setting script yields ih =>
      exact (naming_law.script setting script _ () ih).holds yields
  | @configuration context _ setting configuration _ _ yields ih =>
      have obeys : (configuration.run setting context).Obeys naming ()
          fun ran _ => ran.context.properties.IsWellNamed :=
        naming_law.configuration setting configuration ih
      exact obeys.holds yields

/-- In a context that has come about, each cell has the name that it is stored under, so to take a
cell out and to insert it again leaves the store as it was. -/
theorem cells_keep_names (reached : context.Reached) {name : String} {cell : Property}
    (found : context.properties.get? name = some cell) :
    let restored := Store.put (context.properties.erase name) cell
    cell.name = name ∧ restored.entries.Perm context.properties.entries ∧
      ∀ other, restored.get? other = context.properties.get? other := by
  have wellNamed := reached.isWellNamed
  have isNamed : cell.name = name := wellNamed.named found
  intro restored
  have inserted : restored = (context.properties.erase name).insert name cell :=
    congrArg (NameMap.insert _ · cell) isNamed
  rw [inserted]
  refine ⟨isNamed, NameMap.entries_insert_erase_perm wellNamed.unique found, fun other => ?_⟩
  rw [NameMap.get?_insert, NameMap.get?_erase]
  split
  · rename_i isOther
    rw [isOther, found]
  · rfl

end Context.Reached

/-- A script that counts under one name and copies a property to another. -/
def Script.renaming : Script :=
  ⟨"s", "Renaming", 1,
    [⟨"l", 1, .loop ⟨2, 0, some "index", 0⟩
      [⟨"c", 1, .propertyAction ⟨.copy, "copied", some "user", none, none⟩⟩]⟩]⟩

/-- The copy has its own name, and so has what is merged under a scope afterwards. -/
theorem Context.Reached.renaming_keeps_names :
    let user : Property := .ofString "user" "u1"
    let run := Script.renaming.run .logging (.ofProperties [user])
    let left := (run.tell Request.refused).2.context
    let merged := left.withStore (left.properties.mergeScoped "copy" [user])
    merged.Reached ∧ merged.properties.names = ["user", "index", "copied", "copy.user"] ∧
      ∃ copied, merged.properties.get? "copied" = some copied ∧ copied.name = "copied" ∧
        (Store.put (merged.properties.erase "copied") copied).entries.Perm
          merged.properties.entries := by
  intro user run left merged
  have leftReached : left.Reached :=
    .script (.new [user]) .logging .renaming (Program.yields_tell Request.refused run)
  have reached : merged.Reached := .mergeScoped leftReached "copy" [user]
  have isThere : (merged.properties.get? "copied").isSome := by decide +kernel
  rcases Option.isSome_iff_exists.mp isThere with ⟨copied, found⟩
  have keeps := cells_keep_names reached found
  exact ⟨reached, by decide +kernel, copied, found, keeps.1, keeps.2.1⟩

end TestEngine
