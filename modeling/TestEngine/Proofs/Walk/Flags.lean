import TestEngine.Proofs.Value
import TestEngine.Proofs.Walk.Law

/-!
# Skip flags after a walk

A walk hands its configuration back. It takes one kind of thing away from it: whoever skips an
element for the sake of its dependencies clears the skip flag of the element, also if the author had
set it. Such a flag is of no use where an author may not have elements skipped, so the configuration
runs as before.
-/

namespace TestEngine

variable {α β : Type} {setting : Setting} {isTop : Bool} {element after : Element}

/-! ### Elements with flags cleared -/

/-- The author of an element has set its skip flag to no effect: it is for the element's
dependencies, and not for the author, to have it skipped. -/
structure Element.IsExposed (isTop : Bool) (element : Element) (schema : Schema) : Prop where
  belowTop : isTop = false
  flagged : element.skip = true
  hasSchema : element.schema = some schema
  notSkippable : schema.skippable = false
  dependencyCheck : schema.dependencyCheck = true

/-- An element with other ones in the place of its children. -/
def Element.withChildren (element : Element) (children : List Element) : Element :=
  { element with children }

theorem Element.withChildren_self (element : Element) :
    element.withChildren element.children = element := by
  cases element
  rfl

/-- An element whose author has not set its skip flag. -/
def Element.unflagged (element : Element) : Element := { element with skip := false }

theorem Element.unflagged_eq_self (notFlagged : element.skip = false) :
    element.unflagged = element := by
  cases element
  cases notFlagged
  rfl

mutual

/-- What a walk may make of an element. Below an element that it skips it changes nothing. -/
inductive Element.Clears : (isTop : Bool) → Element → Element → Prop
  | kept {isTop : Bool} {element : Element} {children : List Element}
      (children_clear : Element.AllClear false element.children children) :
      Element.Clears isTop element (element.withChildren children)
  | cleared {isTop : Bool} {element : Element} {schema : Schema}
      (exposed : element.IsExposed isTop schema) :
      Element.Clears isTop element element.unflagged

/-- What a walk may make of siblings. -/
inductive Element.AllClear : (isTop : Bool) → List Element → List Element → Prop
  | nil {isTop : Bool} : Element.AllClear isTop [] []
  | cons {isTop : Bool} {first after : Element} {rest afters : List Element}
      (first_clears : Element.Clears isTop first after)
      (rest_clear : Element.AllClear isTop rest afters) :
      Element.AllClear isTop (first :: rest) (after :: afters)

end

mutual

theorem Element.Clears.refl (isTop : Bool) : (element : Element) → element.Clears isTop element
  | ⟨_, _, _, _, _, children, _, _, _, _⟩ => .kept (Element.AllClear.refl false children)

theorem Element.AllClear.refl (isTop : Bool) :
    (elements : List Element) → Element.AllClear isTop elements elements
  | [] => .nil
  | element :: rest => .cons (Element.Clears.refl isTop element) (Element.AllClear.refl isTop rest)

end

theorem Element.Clears.order_eq (clears : element.Clears isTop after) :
    after.order = element.order := by
  cases clears <;> rfl

namespace Element.AllClear

variable {elements afters : List Element}

theorem isEmpty_eq (clear : AllClear isTop elements afters) :
    elements.isEmpty = afters.isEmpty := by
  cases clear <;> rfl

theorem set (clear : AllClear isTop elements afters) {place : Nat}
    (hasElement : elements[place]? = some element) (clears : element.Clears isTop after) :
    AllClear isTop elements (afters.set place after) := by
  induction elements generalizing afters place with
  | nil => exact nomatch hasElement
  | cons first rest ih =>
      cases clear with
      | cons first_clears rest_clear =>
          cases place with
          | zero =>
              obtain rfl := Option.some.inj hasElement
              exact .cons clears rest_clear
          | succ place => exact .cons first_clears (ih rest_clear hasElement)

end Element.AllClear

/-- One element lies below another one. -/
inductive Element.Above : Element → Element → Prop
  | child {outer child : Element} (childMem : child ∈ outer.children) : Above outer child
  | deeper {outer child inner : Element} (childMem : child ∈ outer.children)
      (above : child.Above inner) : Above outer inner

mutual

/-- Nothing is lost where no flag is exposed. -/
theorem Element.Clears.eq {isTop : Bool} {element after : Element} :
    element.Clears isTop after → (∀ schema, ¬element.IsExposed isTop schema) →
      (∀ inner, element.Above inner → ∀ schema, ¬inner.IsExposed false schema) → after = element
  | .kept children_clear, _, innerSafe => by
      rw [children_clear.eq (fun child childMem => innerSafe child (.child childMem))
        fun child childMem inner above => innerSafe inner (.deeper childMem above),
        element.withChildren_self]
  | .cleared exposed, safe, _ => absurd exposed (safe _)

theorem Element.AllClear.eq {isTop : Bool} {elements afters : List Element} :
    Element.AllClear isTop elements afters →
      (∀ element ∈ elements, ∀ schema, ¬element.IsExposed isTop schema) →
        (∀ element ∈ elements, ∀ inner, element.Above inner →
          ∀ schema, ¬inner.IsExposed false schema) → afters = elements
  | .nil, _, _ => rfl
  | .cons first_clears rest_clear, safe, innerSafe => by
      rw [first_clears.eq (safe _ List.mem_cons_self) (innerSafe _ List.mem_cons_self),
        rest_clear.eq (fun element elementMem => safe element (.tail _ elementMem))
          fun element elementMem => innerSafe element (.tail _ elementMem)]

end

/-! ### Visits -/

/-- A way of visiting an element that may clear flags that are exposed, and does nothing else to the
element. -/
def Element.IsKept (element : Element) (visit : ElementVisit) : Prop :=
  ∀ site context, (visit site context).Always fun ran => element.Clears site.isTop ran.element

theorem walkLevel_clears {visitors : List Visitor} {elements afters : List Element} (site : Site)
    (context : Context)
    (visits : ∀ visitor ∈ visitors, ∃ element, elements[visitor.place]? = some element ∧
      element.IsKept visitor.visit)
    (clear : Element.AllClear site.isTop elements afters) :
    (walkLevel site visitors afters context).Always fun level =>
      Element.AllClear site.isTop elements level.elements := by
  induction visitors generalizing site context afters with
  | nil => exact .pure clear
  | cons visitor rest ih =>
      rcases visits visitor List.mem_cons_self with ⟨element, hasElement, kept⟩
      refine .bind (kept site context) fun ran clears => ?_
      have nowClear := clear.set hasElement clears
      cases ran.ending with
      | completed =>
          exact ih { site with siblings := site.siblings ++ ran.result.toList } ran.context
            (fun other otherMem => visits other (.tail _ otherMem)) nowClear
      | interrupted => exact .pure nowClear
      | crashed => exact .pure nowClear

theorem settleElement_element (site : Site) (element : Element) (context : Context)
    (judge : ElementResult → ElementResult) (schema : Option Schema) :
    (settleElement site element context judge schema).Always fun ran =>
      ran.element = element ∧ ran.result.isSome :=
  .ask fun _ => .ask fun _ => .ask fun _ => .pure ⟨rfl, rfl⟩

theorem closeElement_element (site : Site) (element : Element) (result : ElementResult)
    (ending : Ending) (context : Context) :
    (closeElement site element result ending context).Always fun ran =>
      ran.element = element ∧ ran.result.isSome := by
  cases ending with
  | crashed => exact .pure ⟨rfl, rfl⟩
  | completed => exact .ask fun _ => .ask fun _ => .pure ⟨rfl, rfl⟩
  | interrupted => exact .ask fun _ => .ask fun _ => .pure ⟨rfl, rfl⟩

/-- An element that is visited is handed back with what has become of its children. -/
theorem runElement_element (site : Site) (element : Element) (schema : Schema)
    {children : List Visitor} (context : Context) {condition : List Element → Prop}
    (unwalked : condition element.children)
    (walked : ∀ site context, site.isTop = false →
      (walkLevel site (inOrder Visitor.order children) element.children context).Always fun level =>
        condition level.elements) :
    (runElement setting site element schema children context).Always fun ran =>
      (∃ children, condition children ∧ ran.element = element.withChildren children) ∧
        ran.result.isSome := by
  have itself := element.withChildren_self.symm
  refine .ask fun start => .ask fun _ => ?_
  split
  · refine .thenAny fun _ => (closeElement_element ..).imp ?_
    rintro ran ⟨same, hasResult⟩
    exact ⟨⟨_, unwalked, same.trans itself⟩, hasResult⟩
  · refine .thenAny fun ran => ?_
    split
    · refine (closeElement_element ..).imp ?_
      rintro ran ⟨same, hasResult⟩
      exact ⟨⟨_, unwalked, same.trans itself⟩, hasResult⟩
    · refine .bind (walked _ _ rfl) fun level holds => (closeElement_element ..).imp ?_
      rintro ran ⟨same, hasResult⟩
      exact ⟨⟨_, holds, same⟩, hasResult⟩

/-- Whether the visit of an element skips it for the sake of its dependencies. -/
def Element.isHeldBack (element : Element) (site : Site) : Bool :=
  element.schema.any fun schema => !(schema.skippable && element.skip) &&
    (dependencyFailure element schema site.isTop site.siblings).isSome

theorem Element.isHeldBack_eq {schema : Schema} (hasSchema : element.schema = some schema)
    (site : Site) :
    element.isHeldBack site = (!(schema.skippable && element.skip) &&
      (dependencyFailure element schema site.isTop site.siblings).isSome) := by
  rw [isHeldBack, hasSchema, Option.any_some]

theorem dependencyFailure_eq_some {schema : Schema} {siblings : List ElementResult}
    {reason : String} (failure : dependencyFailure element schema isTop siblings = some reason) :
    isTop = false ∧ schema.dependencyCheck = true := by
  simp only [dependencyFailure] at failure
  split at failure
  · exact nomatch failure
  · rename_i checked
    simpa [and_comm] using checked

theorem Element.exists_isExposed {site : Site} (held : element.isHeldBack site)
    (flagged : element.skip = true) : ∃ schema, element.IsExposed site.isTop schema := by
  rw [isHeldBack, Option.any_eq_true] at held
  rcases held with ⟨schema, hasSchema, held⟩
  rw [flagged, Bool.and_true, Bool.and_eq_true] at held
  rcases Option.isSome_iff_exists.mp held.2 with ⟨reason, failure⟩
  rcases dependencyFailure_eq_some failure with ⟨belowTop, checked⟩
  exact ⟨schema, belowTop, flagged, hasSchema, by simpa using held.1, checked⟩

theorem Element.clears_of_isHeldBack {site : Site} (held : element.isHeldBack site) :
    element.Clears site.isTop element.unflagged := by
  cases flagged : element.skip with
  | true =>
      rcases Element.exists_isExposed held flagged with ⟨schema, exposed⟩
      exact .cleared exposed
  | false =>
      rw [Element.unflagged_eq_self flagged]
      exact Element.Clears.refl site.isTop element

/-- What the visit of an element hands back, and a condition that holds of its children. -/
inductive ElementRun.HandsBack (element : Element) (site : Site)
    (condition : List Element → Prop) (ran : ElementRun) : Prop
  | unseen (noResult : ran.result = none) (same : ran.element = element)
  | heldBack (hasResult : ran.result.isSome) (held : element.isHeldBack site)
      (cleared : ran.element = element.unflagged)
  | seen (hasResult : ran.result.isSome) (goesOn : ¬element.isHeldBack site)
      {children : List Element} (holds : condition children)
      (same : ran.element = element.withChildren children)

theorem visitElement_handsBack (setting : Setting) (element : Element) {children : List Visitor}
    (site : Site) (context : Context) {condition : List Element → Prop}
    (unwalked : condition element.children)
    (walked : ∀ site context, site.isTop = false →
      (walkLevel site (inOrder Visitor.order children) element.children context).Always fun level =>
        condition level.elements) :
    (visitElement setting element children site context).Always fun ran =>
      ran.HandsBack element site condition := by
  refine .ask fun goesOn => ?_
  cases goesOn with
  | false => exact .pure (.unseen rfl rfl)
  | true =>
      rw [if_neg (by decide)]
      have itself := element.withChildren_self.symm
      cases hasSchema : element.schema with
      | none =>
          dsimp only
          refine (settleElement_element site element context _ none).imp ?_
          rintro ran ⟨same, hasResult⟩
          exact .seen hasResult (by simp [Element.isHeldBack, hasSchema]) unwalked
            (same.trans itself)
      | some schema =>
          have isHeldBack := element.isHeldBack_eq hasSchema site
          dsimp only
          split
          · rename_i authorSkips
            rw [authorSkips] at isHeldBack
            refine (settleElement_element site element context _ (some schema)).imp ?_
            rintro ran ⟨same, hasResult⟩
            exact .seen hasResult (by simp [isHeldBack]) unwalked (same.trans itself)
          · rename_i authorRuns
            rw [Bool.not_eq_true] at authorRuns
            rw [authorRuns] at isHeldBack
            split
            · rename_i reason failure
              refine (settleElement_element site _ context _ (some schema)).imp ?_
              rintro ran ⟨cleared, hasResult⟩
              exact .heldBack hasResult (by simp [isHeldBack, failure])
                (cleared.trans (by rw [Element.unflagged, hasSchema]))
            · rename_i noFailure
              refine (runElement_element site element schema context unwalked walked).imp ?_
              rintro ran ⟨⟨children, holds, same⟩, hasResult⟩
              exact .seen hasResult (by simp [isHeldBack, noFailure]) holds same

/-- A visit leaves an element its flag unless it skips the element for the sake of its
dependencies. -/
theorem ElementRun.HandsBack.skip_eq {site : Site} {condition : List Element → Prop}
    {ran : ElementRun} (handsBack : ran.HandsBack element site condition) :
    ran.element.skip = (element.skip && !(ran.result.isSome && element.isHeldBack site)) := by
  cases handsBack with
  | unseen noResult same => simp [noResult, same]
  | heldBack hasResult held cleared => simp [hasResult, held, cleared, Element.unflagged]
  | seen hasResult goesOn holds same => simp [goesOn, same, Element.withChildren]

theorem ElementRun.HandsBack.clears {site : Site} {ran : ElementRun}
    (handsBack : ran.HandsBack element site (Element.AllClear false element.children)) :
    element.Clears site.isTop ran.element := by
  cases handsBack with
  | unseen noResult same => exact same ▸ Element.Clears.refl site.isTop element
  | heldBack hasResult held cleared => exact cleared ▸ Element.clears_of_isHeldBack held
  | seen hasResult goesOn holds same => exact same ▸ .kept holds

theorem visitElement_clears (setting : Setting) (element : Element) {children : List Visitor}
    (visits : ∀ visitor ∈ children, ∃ child, element.children[visitor.place]? = some child ∧
      child.IsKept visitor.visit) :
    element.IsKept (visitElement setting element children) := by
  intro site context
  have unwalked := Element.AllClear.refl false element.children
  refine (visitElement_handsBack setting element site context unwalked ?_).imp fun ran => (·.clears)
  intro inner context belowTop
  rw [← belowTop] at unwalked ⊢
  refine walkLevel_clears inner context (fun visitor visitorMem => ?_) unwalked
  exact visits visitor ((inOrder_perm ..).mem_iff.mp visitorMem)

mutual

theorem Element.visit_clears (setting : Setting) :
    (element : Element) → element.IsKept (element.visit setting)
  | ⟨_, _, _, _, _, children, _, _, _, _⟩ => by
      rw [Element.visit]
      refine visitElement_clears setting _ fun visitor visitorMem => ?_
      simpa using Element.visitors_clear setting 0 children visitor visitorMem

theorem Element.visitors_clear (setting : Setting) (first : Nat) :
    (elements : List Element) → ∀ visitor ∈ Element.visitors setting first elements,
      first ≤ visitor.place ∧ ∃ element, elements[visitor.place - first]? = some element ∧
        element.IsKept visitor.visit
  | [], _, visitorMem => by
      rw [Element.visitors] at visitorMem
      exact absurd visitorMem List.not_mem_nil
  | element :: rest, visitor, visitorMem => by
      rw [Element.visitors] at visitorMem
      rcases List.mem_cons.mp visitorMem with rfl | visitorMem
      · exact ⟨Nat.le_refl _, element, by simp, Element.visit_clears setting element⟩
      · rcases Element.visitors_clear setting (first + 1) rest visitor visitorMem with
          ⟨later, other, hasOther, kept⟩
        refine ⟨Nat.le_of_succ_le later, other, ?_, kept⟩
        have behind : visitor.place - first = visitor.place - (first + 1) + 1 := by omega
        rw [behind]
        exact hasOther

end

theorem Element.visit_flag (setting : Setting) (element : Element) (site : Site)
    (context : Context) :
    (element.visit setting site context).Always fun ran =>
      ran.element.skip = (element.skip && !(ran.result.isSome && element.isHeldBack site)) := by
  rw [Element.visit_eq]
  have handsBack : (visitElement setting element (Element.visitors setting 0 element.children) site
      context).Always fun ran => ran.HandsBack element site fun _ => True :=
    visitElement_handsBack setting element site context True.intro fun _ _ _ => .trivial _
  exact handsBack.imp fun ran => (·.skip_eq)

/-! ### Configurations -/

/-- One element lies somewhere below the top of a configuration. -/
def Configuration.HasBelowTop (configuration : Configuration) (inner : Element) : Prop :=
  ∃ top ∈ configuration.elements, top.Above inner

/-- What a walk may make of a configuration. -/
inductive Configuration.Clears (configuration : Configuration) : Configuration → Prop
  | elements {elements : List Element}
      (elements_clear : Element.AllClear true configuration.elements elements) :
      configuration.Clears { configuration with elements }

theorem Configuration.Clears.refl (configuration : Configuration) :
    configuration.Clears configuration :=
  .elements (Element.AllClear.refl true configuration.elements)

theorem Configuration.Clears.eq {configuration after : Configuration}
    (clears : configuration.Clears after)
    (safe : ∀ inner, configuration.HasBelowTop inner → ∀ schema, ¬inner.IsExposed false schema) :
    after = configuration := by
  cases clears with
  | elements elements_clear =>
      rw [elements_clear.eq (fun top _ schema exposed => nomatch exposed.belowTop)
        fun top topMem inner above => safe inner ⟨top, topMem, above⟩]

theorem Configuration.run_clears (setting : Setting) (configuration : Configuration)
    (context : Context) :
    (configuration.run setting context).Always fun ran =>
      configuration.Clears ran.configuration := by
  refine .ask fun goesOn => ?_
  cases goesOn with
  | false => exact .pure (.refl configuration)
  | true =>
      have unwalked := Element.AllClear.refl true configuration.elements
      refine .ask fun _ => .bind (walkLevel_clears .top _ (fun visitor visitorMem => ?_) unwalked)
        fun level clear => .pure (.elements clear)
      have isVisitor := (inOrder_perm ..).mem_iff.mp visitorMem
      simpa using Element.visitors_clear setting 0 configuration.elements visitor isVisitor

end TestEngine
