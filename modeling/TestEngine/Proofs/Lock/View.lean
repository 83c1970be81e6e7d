import TestEngine.Proofs.Lock.Step

/-!
# Views of one lock

What becomes of the calls on one name can be told from the events on that name, the tokens and the
clock. `LockView.react` says how: it knows no table, no tickets and no other name. So calls on
different names do not influence each other, and the events on one name are a history of their own.
-/

namespace TestEngine

variable {ω : Type}

/-- Whether an event can matter for the calls on a name. -/
def LockEvent.concerns (name : String) (event : LockEvent) : Bool :=
  event.name?.all fun other => other = name

/-! ### What is shown of a call -/

/-- A fate without the rank of its alarm, which depends on what else sets alarms. -/
def LockFate.shown : LockFate → LockFate
  | .waiting alarm => .waiting ⟨alarm.due, 0⟩
  | fate => fate

/-- A call without its ticket, which depends on what else is called for. -/
def LockCall.shown (call : LockCall) : LockCall :=
  { call with ticket := 0, fate := call.fate.shown }

theorem LockFate.isActive_shown (fate : LockFate) : fate.shown.isActive = fate.isActive := by
  cases fate <;> rfl

theorem LockFate.isHolding_shown (fate : LockFate) : fate.shown.isHolding = fate.isHolding := by
  cases fate <;> rfl

theorem LockFate.isWaiting_shown (fate : LockFate) : fate.shown.isWaiting = fate.isWaiting := by
  cases fate <;> rfl

theorem LockFate.exists_waiting {fate other : LockFate} (same : other.shown = fate.shown)
    {alarm : Alarm} (waits : fate = .waiting alarm) :
    ∃ alarm', other = .waiting alarm' ∧ alarm'.due = alarm.due := by
  subst waits
  cases other with
  | waiting alarm' =>
      rw [shown, shown, waiting.injEq, Alarm.mk.injEq] at same
      exact ⟨alarm', rfl, same.1⟩
  | holding since => exact nomatch same
  | dropped since => exact nomatch same
  | refused answer moment => exact nomatch same

theorem LockFate.eq_holding {fate other : LockFate} (same : other.shown = fate.shown)
    {since : Nat} (holds : fate = .holding since) : other = .holding since := by
  subst holds
  cases other with
  | waiting alarm => exact nomatch same
  | holding since => exact same
  | dropped since => exact nomatch same
  | refused answer moment => exact nomatch same

/-- What can be seen of the calls on one name. -/
structure LockView where
  clock : Nat
  cancelled : List Nat
  calls : List LockCall
  grants : List Nat

namespace LockView

def isCancelled (view : LockView) (token : Option Nat) : Bool :=
  token.any fun token => token ∈ view.cancelled

/-- Whether none of some calls uses the lock or waits for it. -/
def isFree (calls : List LockCall) : Bool := calls.all fun call => !call.fate.isActive

def askedFate (view : LockView) (timeout : Nat) (token : Option Nat) : LockFate :=
  if isFree view.calls then .holding view.clock
  else if timeout = 0 then .refused .timedOut view.clock
  else if view.isCancelled token then .refused .cancelled view.clock
  else .waiting ⟨view.clock + timeout, 0⟩

/-- What becomes of a fate at a place when the call there is polled. -/
def polledFate (view : LockView) (place : Nat) : LockFate → LockFate
  | .waiting alarm =>
    if isFree (view.calls.take place) then .holding view.clock
    else if alarm.due ≤ view.clock then .refused .timedOut view.clock
    else .refused .cancelled view.clock
  | fate => fate

def droppedFate : LockFate → LockFate
  | .holding since => .dropped since
  | fate => fate

/-- Enters a call between others. -/
def enter (view : LockView) (before : List LockCall) (call : LockCall) (after : List LockCall) :
    LockView where
  clock := view.clock
  cancelled := view.cancelled
  calls := before ++ call :: after
  grants := if call.fate.isHolding then view.grants ++ [before.length] else view.grants

def append (view : LockView) (timeout : Nat) (token : Option Nat) (fate : LockFate) : LockView :=
  view.enter view.calls ⟨0, timeout, token, view.clock, fate⟩ []

/-- Changes the fate of the call at a place. -/
def change (view : LockView) (place : Nat) (next : LockFate → LockFate) : LockView :=
  match view.calls[place]? with
  | some call =>
    view.enter (view.calls.take place) { call with fate := next call.fate }
      (view.calls.drop (place + 1))
  | none => view

/-- What an event on the name, of a token or of the clock makes of a view. -/
def react (view : LockView) : LockEvent → LockView
  | .call _ timeout token => view.append timeout token (view.askedFate timeout token)
  | .balk _ timeout token => view.append timeout token (.refused .cancelled view.clock)
  | .poll _ place => view.change place (view.polledFate place)
  | .abandon _ place => view.change place fun _ => .refused .cancelled view.clock
  | .drop _ place => view.change place droppedFate
  | .cancel token => { view with cancelled := token :: view.cancelled }
  | .tick moment => { view with clock := moment }
  | .elsewhere => view

theorem change_append (view : LockView) {before after : List LockCall} {call : LockCall}
    (has : view.calls = before ++ call :: after) (next : LockFate → LockFate) :
    view.change before.length next =
      view.enter before { call with fate := next call.fate } after := by
  have here : (before ++ call :: after)[before.length]? = some call := by simp
  have left : (before ++ call :: after).drop (before.length + 1) = after := by
    rw [← List.drop_drop, List.drop_left]
    rfl
  rw [change, has, here, List.take_left, left]

end LockView

namespace Locking

def view (locking : Locking ω) (name : String) : LockView where
  clock := locking.world.clock
  cancelled := locking.cancelled
  calls := (locking.calls name).map LockCall.shown
  grants := locking.grants name

variable {locking next first last : Locking ω} {name : String}
  {world : World ω} {before after : List LockCall} {call : LockCall} {event : LockEvent}
  {events : List LockEvent}

theorem isFree_map_shown (calls : List LockCall) :
    LockView.isFree (calls.map LockCall.shown) ↔ LockCall.standing calls = [] := by
  rw [LockCall.standing_eq_nil_iff, LockView.isFree, List.all_map, List.all_eq_true]
  refine forall₂_congr fun call _ => ?_
  rw [Function.comp, LockCall.shown, LockFate.isActive_shown, Bool.not_eq_true, Bool.not_eq_true']

theorem view_enter (sameClock : world.clock = locking.world.clock) :
    (locking.enter world name before call after).view name =
      (locking.view name).enter (before.map LockCall.shown) call.shown
        (after.map LockCall.shown) := by
  simp only [view, enter, LockView.enter, sameClock, Function.update_self, List.map_append,
    List.map_cons, List.length_map, LockCall.shown, LockFate.isHolding_shown]
  split <;> simp

theorem view_enter_of_ne (sameClock : world.clock = locking.world.clock) {other : String}
    (otherNe : other ≠ name) :
    (locking.enter world name before call after).view other = locking.view other := by
  simp only [view, enter, sameClock, Function.update_of_ne otherNe]
  split
  · rw [Function.update_of_ne otherNe]
  · rfl

theorem shown_askedFate (locking : Locking ω) (name : String) (timeout : Nat)
    (token : Option Nat) :
    (locking.askedFate name timeout token).shown =
      (locking.view name).askedFate timeout token := by
  have viewFree : LockView.isFree (locking.view name).calls ↔
      LockCall.standing (locking.calls name) = [] := isFree_map_shown _
  have viewCancelled : (locking.view name).isCancelled token = locking.isCancelled token := rfl
  rw [askedFate, LockView.askedFate, viewCancelled]
  by_cases free : LockCall.standing (locking.calls name) = []
  · rw [if_pos free, if_pos (viewFree.mpr free)]
    rfl
  · rw [if_neg free, if_neg (mt viewFree.mp free)]
    split
    · rfl
    · split <;> rfl

theorem shown_polledFate (locking : Locking ω) (name : String) (before rest : List LockCall)
    (has : locking.calls name = before ++ rest) (alarm : Alarm) :
    (locking.polledFate before alarm).shown =
      (locking.view name).polledFate before.length (.waiting ⟨alarm.due, 0⟩) := by
  have taken : (locking.view name).calls.take before.length = before.map LockCall.shown := by
    simp [view, has]
  rw [polledFate, LockView.polledFate, taken]
  by_cases free : LockCall.standing before = []
  · rw [if_pos free, if_pos ((isFree_map_shown _).mpr free)]
    rfl
  · rw [if_neg free, if_neg (mt (isFree_map_shown _).mp free)]
    have due : locking.world.isDue alarm ↔ alarm.due ≤ (locking.view name).clock :=
      decide_eq_true_iff
    by_cases isDue : locking.world.isDue alarm
    · rw [if_pos isDue, if_pos (due.mp isDue)]
      rfl
    · rw [if_neg isDue, if_neg (mt due.mpr isDue)]
      rfl

/-- A change of the call at a place, seen in the view. -/
theorem view_enter_eq_change (has : locking.calls name = before ++ call :: after)
    (sameClock : world.clock = locking.world.clock) {fate : LockFate}
    (change : LockFate → LockFate) (shown : fate.shown = change call.fate.shown) :
    (locking.enter world name before { call with fate } after).view name =
      (locking.view name).change before.length change := by
  have viewHas : (locking.view name).calls =
      before.map LockCall.shown ++ call.shown :: after.map LockCall.shown := by
    simp [view, has]
  have sameLength : before.length = (before.map LockCall.shown).length := by simp
  rw [view_enter sameClock, sameLength, LockView.change_append _ viewHas]
  simp only [LockCall.shown, shown]

/-- A step on a name makes of its view what the view itself says. -/
theorem Step.view (step : locking.Step event next) (ordered : locking.Ordered)
    (concerns : event.concerns name) : next.view name = (locking.view name).react event := by
  have isName {other : String} (here : Option.all (fun other => other = name) (some other)) :
      other = name := by simpa using here
  cases step with
  | call other timeout token =>
      obtain rfl := isName concerns
      rcases ordered.callOn_eq other timeout token with ⟨world, entered, relines, -⟩
      rw [entered, view_enter relines.clock]
      simp only [LockCall.shown, shown_askedFate]
      rfl
  | balk other timeout cancelled =>
      obtain rfl := isName concerns
      exact view_enter (ordered.balk_relines other).clock
  | @poll other before call after alarm has waits awake =>
      obtain rfl := isName concerns
      rcases ordered.pollOn_eq has waits with ⟨world, entered, relines, -⟩
      rw [entered, LockView.react]
      refine view_enter_eq_change has relines.clock _ ?_
      rw [shown_polledFate locking other before _ has, waits]
      rfl
  | abandon has waits cancelled =>
      obtain rfl := isName concerns
      exact view_enter_eq_change has (World.giveUpLock_clock ..)
        (fun _ => .refused .cancelled locking.world.clock) rfl
  | drop has holds =>
      obtain rfl := isName concerns
      refine view_enter_eq_change has rfl _ ?_
      rw [holds]
      rfl
  | cancel token => rfl
  | tick settled later inTime => rfl
  | elsewhere sameLocks sameClock sameTickets =>
      rw [LockView.react, Locking.view, sameClock]
      rfl

/-- A step on another name leaves the view of a name alone. -/
theorem Step.view_of_not_concerns (step : locking.Step event next)
    (ordered : locking.Ordered) (elsewhere : ¬event.concerns name) :
    next.view name = locking.view name := by
  have otherName {other : String}
      (elsewhere : ¬Option.all (fun other => other = name) (some other)) : name ≠ other := by
    simpa [eq_comm] using elsewhere
  cases step with
  | call other timeout token =>
      rcases ordered.callOn_eq other timeout token with ⟨world, entered, relines, -⟩
      rw [entered]
      exact view_enter_of_ne relines.clock (otherName elsewhere)
  | balk other timeout cancelled =>
      exact view_enter_of_ne (ordered.balk_relines other).clock (otherName elsewhere)
  | poll has waits awake =>
      rcases ordered.pollOn_eq has waits with ⟨world, entered, relines, -⟩
      rw [entered]
      exact view_enter_of_ne relines.clock (otherName elsewhere)
  | abandon has waits cancelled =>
      exact view_enter_of_ne (World.giveUpLock_clock ..) (otherName elsewhere)
  | drop has holds => exact view_enter_of_ne rfl (otherName elsewhere)
  | cancel token => exact absurd rfl elsewhere
  | tick settled later inTime => exact absurd rfl elsewhere
  | elsewhere sameLocks sameClock sameTickets => exact absurd rfl elsewhere

/-- The view of a name is made by the events that concern it. -/
theorem History.view (history : History first events last) (ordered : first.Ordered)
    (name : String) :
    last.view name =
      (events.filter (LockEvent.concerns name)).foldl LockView.react (first.view name) := by
  induction history with
  | start => rfl
  | @step last next events event history step ih =>
      have lastOrdered := history.ordered ordered
      rw [List.filter_append, List.foldl_append, ← ih]
      by_cases concerns : event.concerns name
      · rw [step.view lastOrdered concerns, List.filter_cons_of_pos concerns]
        rfl
      · rw [step.view_of_not_concerns lastOrdered concerns, List.filter_cons_of_neg concerns]
        rfl

/-! ### Events on one name alone -/

section Alone

variable {alone : Locking ω}

theorem exists_waiting_of_isAwake (awake : locking.isAwake name call) :
    ∃ alarm, call.fate = .waiting alarm := by
  rw [isAwake] at awake
  split at awake
  · rename_i alarm waits
    exact ⟨alarm, waits⟩
  · cases awake

/-- Which calls are awake can be told from the view of their name. -/
theorem isAwake_of_view_eq (ordered : locking.Ordered) (aloneOrdered : alone.Ordered)
    (same : alone.view name = locking.view name) {before' after' : List LockCall}
    {call' : LockCall} (has : locking.calls name = before ++ call :: after)
    (aloneHas : alone.calls name = before' ++ call' :: after')
    (sameBefore : before'.map LockCall.shown = before.map LockCall.shown)
    (sameCall : call'.shown = call.shown) (awake : locking.isAwake name call) :
    alone.isAwake name call' := by
  rcases exists_waiting_of_isAwake awake with ⟨alarm, waits⟩
  rcases LockFate.exists_waiting (congrArg LockCall.fate sameCall) waits with
    ⟨alarm', aloneWaits, sameDue⟩
  have sameClock : alone.world.clock = locking.world.clock := congrArg LockView.clock same
  have sameCancelled : alone.cancelled = locking.cancelled := congrArg LockView.cancelled same
  have sameToken : call'.token = call.token :=
    show call'.shown.token = call.shown.token from congrArg LockCall.token sameCall
  rw [ordered.isAwake_iff has waits] at awake
  rw [aloneOrdered.isAwake_iff aloneHas aloneWaits, ← isFree_map_shown, sameBefore,
    isFree_map_shown, World.isDue, sameDue, sameClock, isCancelled, sameCancelled, sameToken]
  exact awake

/-- The calls of a view are those of each locking that shows it. -/
theorem exists_calls_of_view_eq (same : alone.view name = locking.view name)
    (has : locking.calls name = before ++ call :: after) :
    ∃ before' call' after', alone.calls name = before' ++ call' :: after' ∧
      before'.map LockCall.shown = before.map LockCall.shown ∧ call'.shown = call.shown := by
  have sameCalls : (alone.calls name).map LockCall.shown =
      before.map LockCall.shown ++ call.shown :: after.map LockCall.shown := by
    rw [← List.map_cons, ← List.map_append, ← has]
    exact congrArg LockView.calls same
  rcases List.map_eq_append_iff.mp sameCalls with ⟨before', rest, aloneHas, sameBefore, sameRest⟩
  rcases List.map_eq_cons_iff.mp sameRest with ⟨call', after', rfl, sameCall, -⟩
  exact ⟨before', call', after', aloneHas, sameBefore, sameCall⟩

theorem settled_of_view_eq (ordered : locking.Ordered) (aloneOrdered : alone.Ordered)
    (same : alone.view name = locking.view name)
    (others : ∀ other, other ≠ name → alone.calls other = []) (settled : locking.Settled) :
    alone.Settled := by
  intro other call' callMem awake
  by_cases isName : other = name
  · subst isName
    rcases List.append_of_mem callMem with ⟨before', after', aloneHas⟩
    rcases exists_calls_of_view_eq same.symm aloneHas with
      ⟨before, call, after, has, sameBefore, sameCall⟩
    have nowAwake := isAwake_of_view_eq aloneOrdered ordered same.symm aloneHas has sameBefore
      sameCall awake
    exact settled other call (by simp [has]) nowAwake
  · rw [others other isName] at callMem
    exact nomatch callMem

/-- What can happen on a name can also happen where there is no other name. -/
theorem Step.exists_alone (step : locking.Step event next) (ordered : locking.Ordered)
    (aloneOrdered : alone.Ordered) (same : alone.view name = locking.view name)
    (others : ∀ other, other ≠ name → alone.calls other = []) (concerns : event.concerns name) :
    ∃ next', alone.Step event next' ∧
      ∀ other, other ≠ name → next'.calls other = [] := by
  have isName {other : String} (here : Option.all (fun other => other = name) (some other)) :
      other = name := by simpa using here
  have sameCancelled : alone.cancelled = locking.cancelled := congrArg LockView.cancelled same
  have sameLength {before before' : List LockCall}
      (sameBefore : before'.map LockCall.shown = before.map LockCall.shown) :
      before.length = before'.length := by
    simpa using (congrArg List.length sameBefore).symm
  have entered {world : World ω} {name : String} {before after : List LockCall} {call : LockCall}
      (others : ∀ other, other ≠ name → alone.calls other = []) (other : String)
      (otherNe : other ≠ name) : (alone.enter world name before call after).calls other = [] := by
    exact (Function.update_of_ne otherNe ..).trans (others other otherNe)
  cases step with
  | call other timeout token =>
      obtain rfl := isName concerns
      exact ⟨_, .call other timeout token, entered others⟩
  | @balk other timeout token cancelled =>
      obtain rfl := isName concerns
      have aloneCancelled : alone.isCancelled token := by
        rw [isCancelled, sameCancelled]
        exact cancelled
      exact ⟨_, .balk other timeout aloneCancelled, entered others⟩
  | poll has waits awake =>
      obtain rfl := isName concerns
      rcases exists_calls_of_view_eq same has with
        ⟨before', call', after', aloneHas, sameBefore, sameCall⟩
      have aloneAwake := isAwake_of_view_eq ordered aloneOrdered same has aloneHas sameBefore
        sameCall awake
      rcases exists_waiting_of_isAwake aloneAwake with ⟨alarm', aloneWaits⟩
      rw [sameLength sameBefore]
      exact ⟨_, .poll aloneHas aloneWaits aloneAwake, entered others⟩
  | @abandon other before call after has waits cancelled =>
      obtain rfl := isName concerns
      rcases exists_calls_of_view_eq same has with
        ⟨before', call', after', aloneHas, sameBefore, sameCall⟩
      have sameFate : call'.fate.shown = call.fate.shown := congrArg LockCall.fate sameCall
      have aloneWaits : call'.fate.isWaiting := by
        rw [← LockFate.isWaiting_shown, sameFate, LockFate.isWaiting_shown]
        exact waits
      have sameToken : call'.token = call.token :=
        show call'.shown.token = call.shown.token from congrArg LockCall.token sameCall
      have aloneCancelled : alone.isCancelled call'.token := by
        rw [isCancelled, sameCancelled, sameToken]
        exact cancelled
      rw [sameLength sameBefore]
      exact ⟨_, .abandon aloneHas aloneWaits aloneCancelled, entered others⟩
  | @drop other before call after since has holds =>
      obtain rfl := isName concerns
      rcases exists_calls_of_view_eq same has with
        ⟨before', call', after', aloneHas, sameBefore, sameCall⟩
      have aloneHolds : call'.fate = .holding since :=
        LockFate.eq_holding (congrArg LockCall.fate sameCall) holds
      rw [sameLength sameBefore]
      exact ⟨_, .drop aloneHas aloneHolds, entered others⟩
  | cancel token => exact ⟨_, .cancel token, others⟩
  | @tick moment settled later inTime =>
      refine ⟨_, .tick (settled_of_view_eq ordered aloneOrdered same others settled) ?_ ?_, others⟩
      · exact Nat.le_trans (Nat.le_of_eq (congrArg LockView.clock same)) later
      · intro other call' callMem alarm' aloneWaits
        by_cases isName : other = name
        · subst isName
          rcases List.append_of_mem callMem with ⟨before', after', aloneHas⟩
          rcases exists_calls_of_view_eq same.symm aloneHas with
            ⟨before, call, after, has, -, sameCall⟩
          rcases LockFate.exists_waiting (congrArg LockCall.fate sameCall) aloneWaits with
            ⟨alarm, waits, sameDue⟩
          exact sameDue ▸ inTime other call (by simp [has]) alarm waits
        · rw [others other isName] at callMem
          exact nomatch callMem
  | elsewhere sameLocks sameClock sameTickets => exact ⟨_, .elsewhere rfl rfl rfl, others⟩

/-- The events that concern a name are a history of their own. -/
theorem History.exists_alone (history : History first events last)
    (ordered : first.Ordered) (noCalls : ∀ name, first.calls name = []) (name : String) :
    ∃ alone, History first (events.filter (LockEvent.concerns name)) alone ∧
      alone.view name = last.view name ∧ ∀ other, other ≠ name → alone.calls other = [] := by
  induction history with
  | start => exact ⟨first, .start, rfl, fun other _ => noCalls other⟩
  | @step last next events event history step ih =>
      rcases ih with ⟨alone, aloneHistory, same, others⟩
      have lastOrdered := history.ordered ordered
      have aloneOrdered := aloneHistory.ordered ordered
      rw [List.filter_append]
      by_cases concerns : event.concerns name
      · rcases step.exists_alone lastOrdered aloneOrdered same others concerns with
          ⟨next', aloneStep, othersThen⟩
        rw [List.filter_cons_of_pos concerns]
        refine ⟨next', aloneHistory.step aloneStep, ?_, othersThen⟩
        rw [aloneStep.view aloneOrdered concerns, step.view lastOrdered concerns, same]
      · rw [List.filter_cons_of_neg concerns, List.filter_nil, List.append_nil,
          step.view_of_not_concerns lastOrdered concerns]
        exact ⟨alone, aloneHistory, same, others⟩

end Alone

end Locking

end TestEngine
