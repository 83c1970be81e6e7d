import TestEngine.Proofs.Machine.Dialogue
import TestEngine.Proofs.Machine.Attendance
import TestEngine.Proofs.Walk.Law

/-!
# The handshake with a tester

A manual element waits for a tester, and clients can send signals of any kind before, meanwhile and
afterwards. What becomes of the element depends on no more than whether an interruption came before
the wait was over and on the interaction that was delivered last since it began. A pause or a
resumption may end the wait or prolong it, but decides nothing.
-/

namespace TestEngine

open Calendar

variable {ω : Type}

/-! ### What clients have said -/

def Signal.interaction? : Signal → Option Interaction
  | interact interaction => some interaction
  | _ => none

/-- What was delivered last by some signals. -/
def Signal.lastDelivered (signals : List Signal) : Option Interaction :=
  (signals.filterMap Signal.interaction?).getLast?

theorem Signal.lastDelivered_append (earlier later : List Signal) :
    lastDelivered (earlier ++ later) = (lastDelivered later).or (lastDelivered earlier) := by
  rw [lastDelivered, List.filterMap_append, List.getLast?_append]
  rfl

theorem Control.interaction_resume {η : Type} (control : Control η) :
    control.resume.interaction = control.interaction := by
  by_cases isPaused : control.status = .paused <;> simp [resume, writePaused, isPaused]

theorem Control.interrupted_resume {η : Type} (control : Control η) :
    control.resume.interrupted = control.interrupted := by
  by_cases isPaused : control.status = .paused <;> simp [resume, writePaused, isPaused]

/-- What the signals of some time come to in a session of a job that runs, if the task does nothing
meanwhile but to pause and to publish. -/
structure Session.Hears (session : Session) (signals : List Signal) (last : Session) : Prop where
  runStatus : last.result.runStatus = session.result.runStatus
  interaction : last.control.interaction =
    (Signal.lastDelivered signals).or session.control.interaction
  interrupted : last.control.interrupted =
    (session.control.interrupted || decide (Signal.interrupt ∈ signals))
  isActive : last.control.status.isActive = true

namespace Session.Hears

variable {session middle last : Session} {signals later : List Signal}

theorem refl (isActive : session.control.status.isActive = true) : session.Hears [] session :=
  ⟨rfl, rfl, (Bool.or_false _).symm, isActive⟩

theorem trans (hears : session.Hears signals middle) (further : middle.Hears later last) :
    session.Hears (signals ++ later) last where
  runStatus := further.runStatus.trans hears.runStatus
  interaction := by
    rw [further.interaction, hears.interaction, Signal.lastDelivered_append, Option.or_assoc]
  interrupted := by
    rw [further.interrupted, hears.interrupted]
    simp [Bool.or_assoc]
  isActive := further.isActive

theorem signal (isActive : session.control.status.isActive = true) (sent : Signal) :
    session.Hears [sent] (session.mapControl sent.act) := by
  have ongoing : session.control.status.isTerminal = false := by
    rw [← Bool.not_eq_true]
    exact JobStatus.not_isTerminal_of_isActive isActive
  have stillActive : (session.mapControl sent.act).control.status.isActive = true :=
    (Onward.mapControl session fun control => .act control sent).isActive isActive
  cases sent with
  | pause =>
      have isPaused : (session.mapControl Signal.pause.act).control =
          session.control.writePaused true := if_neg (by simp [ongoing])
      refine ⟨rfl, ?_, ?_, stillActive⟩
      · rw [isPaused]
        rfl
      · rw [isPaused]
        exact (Bool.or_false _).symm
  | resume =>
      exact ⟨rfl, session.control.interaction_resume,
        session.control.interrupted_resume.trans (Bool.or_false _).symm, stillActive⟩
  | interrupt =>
      have isInterrupted : (session.mapControl Signal.interrupt.act).control =
          { session.control with interrupted := true } := if_neg (by simp [ongoing])
      refine ⟨rfl, ?_, ?_, stillActive⟩
      · rw [isInterrupted]
        rfl
      · rw [isInterrupted]
        exact (Bool.or_true _).symm
  | interact interaction =>
      exact ⟨rfl, Control.interaction_resume _,
        (Control.interrupted_resume _).trans (Bool.or_false _).symm, stillActive⟩

theorem after (isActive : session.control.status.isActive = true) (signals : List Signal) :
    session.Hears signals (session.after signals) := by
  induction signals generalizing session with
  | nil => exact refl isActive
  | cons sent rest ih =>
      have first := signal isActive sent
      exact first.trans (ih first.isActive)

/-- Being suspended is not heard. -/
theorem withStatus {status : JobStatus} (staysActive : status.isActive = true) :
    session.Hears [] { session with control := { session.control with status } } :=
  ⟨rfl, rfl, (Bool.or_false _).symm, staysActive⟩

theorem park (isActive : session.control.status.isActive = true) :
    session.Hears [] (session.mapControl Control.park) := by
  rw [mapControl, Control.park]
  split
  · exact withStatus rfl
  · exact refl isActive

theorem wake (isActive : session.control.status.isActive = true) :
    session.Hears [] (session.mapControl Control.wake) := by
  rw [mapControl, Control.wake]
  split
  · exact withStatus rfl
  · exact refl isActive

/-- What a task hears that is suspended until it is woken. -/
theorem suspended (hears : session.Hears signals middle) (later : List Signal) :
    session.Hears (signals ++ later)
      (((middle.mapControl Control.park).after later).mapControl Control.wake) := by
  have parked := hears.trans (park hears.isActive)
  have slept := parked.trans (after parked.isActive later)
  simpa using slept.trans (wake slept.isActive)

end Session.Hears

/-! ### Requests -/

section Requests

variable {registry : Registry ω} {session last : Session} {signals : List Signal}

/-- A checkpoint is passed only by a run that nobody has interrupted by then. -/
theorem Request.Gets.checkpoint (isActive : session.control.status.isActive = true)
    {goesOn : Bool} (gets : Request.checkpoint.Gets registry session signals goesOn last) :
    if goesOn then session.Hears signals last ∧ last.control.interrupted = false
    else last.control.interrupted = true := by
  -- Both at once and after a wait it is told by the same look at the session.
  have looks {seen : Session} (hears : session.Hears signals seen)
      (told : goesOn = !seen.notice.2) (isLast : last = seen.notice.1) :
      if goesOn then session.Hears signals last ∧ last.control.interrupted = false
      else last.control.interrupted = true := by
    subst told isLast
    cases isInterrupted : seen.control.interrupted with
    | false =>
        rw [seen.notice_of_not_interrupted isInterrupted]
        exact ⟨hears, isInterrupted⟩
    | true =>
        have noticed : seen.notice.2 = true := isInterrupted
        rw [noticed]
        exact (Session.Onward.notice seen).control.interrupted isInterrupted
  rcases gets with ⟨before, later, world, rfl, outcome⟩
  have hears := Session.Hears.after isActive before
  cases isInterrupted : (session.after before).control.interrupted with
  | true =>
      have turnsBack : Request.checkpoint.carryOut registry (session.after before) world =
          ⟨(session.after before).notice.1, world, .answered false⟩ := if_pos isInterrupted
      rw [turnsBack] at outcome
      rcases outcome with ⟨answered, rfl, isLast⟩ | ⟨wait, waits, -⟩
      · rw [List.append_nil] at looks ⊢
        refine looks hears ?_ isLast
        exact (Outcome.answered.inj answered).symm.trans (congrArg not isInterrupted).symm
      · cases waits
  | false =>
      have noticed := (session.after before).notice_of_not_interrupted isInterrupted
      by_cases isPaused : (session.after before).control.paused = true
      · have parks : Request.checkpoint.carryOut registry (session.after before) world =
            ⟨(session.after before).mapControl Control.park, world, .waiting .checkpoint⟩ := by
          simp [carryOut, noticed, isPaused]
        rw [parks] at outcome
        rcases outcome with ⟨answered, -⟩ | ⟨wait, waits, concludes⟩
        · cases answered
        · obtain rfl := Outcome.waiting.inj waits
          cases concludes with
          | answered awake answered =>
              exact looks (hears.suspended later) (Outcome.answered.inj answered).symm rfl
          | again awake waits concludes => cases waits
      · have passes : Request.checkpoint.carryOut registry (session.after before) world =
            ⟨session.after before, world, .answered true⟩ := by
          simp [carryOut, noticed, isPaused]
        rw [passes] at outcome
        rcases outcome with ⟨answered, rfl, isLast⟩ | ⟨wait, waits, -⟩
        · rw [List.append_nil] at looks ⊢
          refine looks hears ?_ (isLast.trans (congrArg Prod.fst noticed).symm)
          exact (Outcome.answered.inj answered).symm.trans (congrArg not isInterrupted).symm
        · cases waits

/-- Publishing is nothing that is heard. -/
theorem Request.Gets.publish (isActive : session.control.status.isActive = true)
    {results : List ElementResult} {done : Unit}
    (gets : (Request.publish results).Gets registry session signals done last) :
    session.Hears signals last := by
  rcases gets.atOnce fun _ _ _ waits => nomatch waits with ⟨world, -, rfl⟩
  have hears := Session.Hears.after isActive signals
  exact ⟨hears.runStatus, hears.interaction, hears.interrupted, hears.isActive⟩

/-- When a run begins to wait, nothing that was delivered before counts any more. -/
theorem Request.Gets.openInteraction (isActive : session.control.status.isActive = true)
    {done : Unit} (gets : Request.openInteraction.Gets registry session signals done last) :
    last.result.runStatus = .waiting ∧ last.control.interaction = none ∧
      last.control.interrupted =
        (session.control.interrupted || decide (Signal.interrupt ∈ signals)) ∧
      last.control.status.isActive = true := by
  rcases gets.atOnce fun _ _ _ waits => nomatch waits with ⟨world, -, rfl⟩
  have hears := Session.Hears.after isActive signals
  exact ⟨rfl, rfl, hears.interrupted, hears.isActive⟩

theorem Request.Gets.cancelRun (isActive : session.control.status.isActive = true)
    {done : Unit} (gets : Request.cancelRun.Gets registry session signals done last) :
    last.result.runStatus = .cancelled ∧ last.control.interrupted = true ∧
      last.control.status.isActive = true := by
  rcases gets.atOnce fun _ _ _ waits => nomatch waits with ⟨world, -, rfl⟩
  have hears := (Session.Hears.after isActive signals).trans
    (.signal (Session.Hears.after isActive signals).isActive .interrupt)
  exact ⟨rfl, hears.interrupted.trans (by simp), hears.isActive⟩

/-- A wait for a tester that nobody has interrupted comes to what was delivered. -/
theorem Session.endInteraction_of_not_interrupted (session : Session)
    (notInterrupted : session.control.interrupted = false) :
    session.endInteraction =
      ({ session.endWaiting with
          control := { session.endWaiting.control with interaction := none } },
        some session.endWaiting.control.interaction) := by
  have noticed := session.notice_of_not_interrupted notInterrupted
  simp only [endInteraction, noticed]
  rfl

theorem Session.endInteraction_of_interrupted (session : Session)
    (isInterrupted : session.control.interrupted = true) : session.endInteraction.2 = none := by
  have noticed : session.notice.2 = true := isInterrupted
  simp only [endInteraction, noticed, if_pos]

theorem Request.Gets.awaitInteraction (isActive : session.control.status.isActive = true)
    (isWaiting : session.result.runStatus = .waiting) {reply : Option (Option Interaction)}
    (gets : Request.awaitInteraction.Gets registry session signals reply last) :
    if session.control.interrupted || decide (Signal.interrupt ∈ signals) then reply = none
    else reply = some ((Signal.lastDelivered signals).or session.control.interaction) ∧
      last.result.runStatus = .running ∧ last.control.status.isActive = true := by
  have ends {seen : Session} (hears : session.Hears signals seen)
      (told : reply = seen.endInteraction.2) (isLast : last = seen.endInteraction.1) :
      if session.control.interrupted || decide (Signal.interrupt ∈ signals) then reply = none
      else reply = some ((Signal.lastDelivered signals).or session.control.interaction) ∧
        last.result.runStatus = .running ∧ last.control.status.isActive = true := by
    rw [← hears.interrupted, ← hears.interaction]
    cases isInterrupted : seen.control.interrupted with
    | true => exact told.trans (seen.endInteraction_of_interrupted isInterrupted)
    | false =>
        have seenWaiting : seen.result.runStatus = .waiting := hears.runStatus.trans isWaiting
        have goesOn : seen.endWaiting = seen.setRunStatus .running := if_pos seenWaiting
        rw [seen.endInteraction_of_not_interrupted isInterrupted, goesOn] at told isLast
        rw [isLast]
        exact ⟨told, rfl, hears.isActive⟩
  rcases gets with ⟨before, later, world, rfl, outcome⟩
  have hears := Session.Hears.after isActive before
  cases isInterrupted : (session.after before).control.interrupted with
  | true =>
      have turnsBack : Request.awaitInteraction.carryOut registry (session.after before) world =
          ⟨(session.after before).endInteraction.1, world,
            .answered (session.after before).endInteraction.2⟩ := if_pos isInterrupted
      rw [turnsBack] at outcome
      rcases outcome with ⟨answered, rfl, isLast⟩ | ⟨wait, waits, -⟩
      · rw [List.append_nil] at ends ⊢
        exact ends hears (Outcome.answered.inj answered).symm isLast
      · cases waits
  | false =>
      let parked := (session.after before).mapControl Control.park
      by_cases canWake : parked.control.canWake = true
      · have wakes : Request.awaitInteraction.carryOut registry (session.after before) world =
            ⟨(parked.mapControl Control.wake).endInteraction.1, world,
              .answered (parked.mapControl Control.wake).endInteraction.2⟩ := by
          simp only [carryOut, isInterrupted, Bool.false_eq_true, if_false]
          exact if_pos canWake
        rw [wakes] at outcome
        rcases outcome with ⟨answered, rfl, isLast⟩ | ⟨wait, waits, -⟩
        · exact ends (hears.suspended []) (Outcome.answered.inj answered).symm isLast
        · cases waits
      · have waits : Request.awaitInteraction.carryOut registry (session.after before) world =
            ⟨parked, world, .waiting .interaction⟩ := by
          simp only [carryOut, isInterrupted, Bool.false_eq_true, if_false]
          exact if_neg canWake
        rw [waits] at outcome
        rcases outcome with ⟨answered, -⟩ | ⟨wait, isWait, concludes⟩
        · cases answered
        · obtain rfl := Outcome.waiting.inj isWait
          cases concludes with
          | answered awake answered =>
              exact ends (hears.suspended later) (Outcome.answered.inj answered).symm rfl
          | again awake waits concludes => cases waits

end Requests

/-! ### Manual elements -/

/-- The node of a manual element that a tester is waited for. -/
def Element.waiting (element : Element) (schema : Schema) (visited started : Instant) :
    ElementResult :=
  { ElementResult.ofElement element (some schema) visited with
    manual := some .waiting
    start := some started
    scripts := []
    results := [] }

/-- The node once the wait is over and the visit has ended; what it has come to is still open. -/
def Element.awaited (element : Element) (schema : Schema) (visited started stopped : Instant) :
    ElementResult :=
  { element.waiting schema visited started with
    stop := some stopped
    duration := some (stopped.millisSince started) }

/-- What a waiting node comes to by the reply that ends the wait: how the visit ends, with the node
and the session that it leaves. -/
def ElementResult.Replied (node : ElementResult) (ending : Ending) (result : ElementResult)
    (last : Session) : Option (Option Interaction) → Prop
  | none =>
    result = { node with verdict := some .failed, message := "Manual execution interrupted" } ∧
      ending = .interrupted
  | some input =>
    ending = .completed ∧
      match input.bind Interaction.manualResult with
      | none =>
        result = { node with verdict := some .failed, message := "No manual result received" } ∧
          last.result.runStatus = .running
      | some manual =>
        match manual.status with
        | .finished =>
          result = { node with
            verdict := some (manual.verdict.getD .passed)
            message := manual.comment
            manual := some manual } ∧ last.result.runStatus = .running
        | .aborted =>
          result = { node with
            verdict := some .failed
            message := some "Manual execution aborted"
            manual := some manual } ∧
          last.result.runStatus = .cancelled ∧ last.control.interrupted = true
        | .waiting =>
          result = { node with
            verdict := some .failed
            message := some "Manual result is still Waiting" } ∧ last.result.runStatus = .running

/-- How the visit of a manual element goes that is neither skipped nor kept from its turn: it is
turned back at its checkpoint, or it waits for a tester once. The reply depends on whether there was
an interruption by the end of the wait, and on what was delivered last since it began. -/
inductive Element.Handshake (element : Element) (schema : Schema) (last : Session) :
    List (Exchange (List Signal)) → ElementRun → Prop
  | turnedBack {signals : List Signal} {context : Context}
      (interrupted : last.control.interrupted = true) :
      Handshake element schema last [⟨.checkpoint, false, signals⟩]
        ⟨element, none, .interrupted, context⟩
  | met {opening closing : List (Exchange (List Signal))} {before heard : List Signal}
      {reply : Option (Option Interaction)} {visited started stopped : Instant}
      {ending : Ending} {result : ElementResult} {context : Context}
      (once : ∀ exchange ∈ opening ++ closing,
        exchange.request ≠ .openInteraction ∧ exchange.request ≠ .awaitInteraction)
      (isReply : reply =
        if Signal.interrupt ∈ opening.flatMap Exchange.note ++ before ++ heard then none
        else some (Signal.lastDelivered heard))
      (replied : (element.awaited schema visited started stopped).Replied ending result last
        reply) :
      Handshake element schema last
        (opening ++ ⟨.openInteraction, (), before⟩ :: ⟨.awaitInteraction, reply, heard⟩ :: closing)
        ⟨element, some result, ending, context⟩

section Visits

variable {registry : Registry ω} {setting : Setting} {session last : Session} {element : Element}
  {schema : Schema} {site : Site} {context : Context} {history : List (Exchange (List Signal))}
  {ran : ElementRun}

/-- An element that its schema lets be visited in its turn is run as soon as its checkpoint is
passed. -/
theorem visitElement_eq (children : List Visitor) (hasSchema : element.schema = some schema)
    (visits : (schema.skippable && element.skip) = false)
    (inTurn : dependencyFailure element schema site.isTop site.siblings = none) :
    visitElement setting element children site context =
      Program.request .checkpoint >>= fun goesOn =>
        if goesOn then runElement setting site element schema children context
        else return ⟨element, none, .interrupted, context⟩ := by
  rw [visitElement]
  refine congrArg _ (funext fun goesOn => ?_)
  cases goesOn with
  | false => rfl
  | true => simp [hasSchema, visits, inTurn]

/-- The visit of a manual element of a job, from the checkpoint on. -/
theorem runElement_eq_of_manual (attended : setting.attended = true)
    (isManual : element.isManualLeaf = true) (children : List Visitor) :
    ∃ merged, runElement setting site element schema children context =
      Program.request .now >>= fun visited =>
      site.publish (.ofElement element (some schema) visited) >>= fun _ =>
      Program.request .now >>= fun started =>
      site.publish (element.waiting schema visited started) >>= fun _ =>
      Program.request .openInteraction >>= fun _ =>
      Program.request .awaitInteraction >>= fun reply =>
      takeManualInput site (element.waiting schema visited started) reply >>= fun taken =>
      closeElement site element taken.1 taken.2 merged := by
  refine ⟨if schema.propertyContainer then
      { context with properties := context.properties.merge element.properties }
    else context, ?_⟩
  simp only [runElement, isManual, if_true, awaitManualResult, attended, Bool.not_true,
    Bool.false_eq_true, if_false, bind_assoc]
  rfl

/-- Finishing a node with a verdict that has neither scripts nor children notes the time and no
more. -/
theorem ElementResult.finish_of_leaf {result : ElementResult} {verdict : Verdict}
    (isJudged : result.verdict = some verdict) (noScripts : result.scripts = [])
    (noResults : result.results = []) (now : Instant) :
    result.finish now =
      { result with stop := some now, duration := result.start.map now.millisSince } := by
  rw [finish, rollUp]
  split
  · rfl
  · simp [noScripts, noResults, isJudged]

/-- What the visit of a node that has been judged still does. -/
theorem closeElement_judged {result : ElementResult} {verdict : Verdict} {ending : Ending}
    (isJudged : result.verdict = some verdict) (noScripts : result.scripts = [])
    (noResults : result.results = []) (notCrashed : ending ≠ .crashed)
    (dialogue : Dialogue registry session history last)
    (yields : (closeElement site element result ending context).Yields history ran) :
    (∀ exchange ∈ history,
      exchange.request ≠ .openInteraction ∧ exchange.request ≠ .awaitInteraction) ∧
    (session.control.status.isActive = true → ∃ signals, session.Hears signals last) ∧
    ∃ stopped, ran = ⟨element, some { result with
      stop := some stopped, duration := result.start.map stopped.millisSince }, ending,
        context⟩ := by
  have closes : closeElement site element result ending context =
      Program.request .now >>= fun stopped => site.publish (result.finish stopped) >>= fun _ =>
        return ⟨element, some (result.finish stopped), ending, context⟩ := by
    cases ending with
    | crashed => exact absurd rfl notCrashed
    | completed => rfl
    | interrupted => simp [closeElement, isJudged]
  rw [closes] at yields
  rcases Program.yields_ask.mp yields with ⟨stopped, signals, rest, rfl, goesOn⟩
  rcases Program.yields_ask.mp goesOn with ⟨done, later, rest, rfl, returns⟩
  rcases Program.yields_pure.mp returns with ⟨rfl, rfl⟩
  refine ⟨by simp, fun isActive => ?_, stopped, ?_⟩
  · rcases Dialogue.cons_iff.mp dialogue with ⟨read, getsNow, further⟩
    rcases Dialogue.cons_iff.mp further with ⟨published, getsPublished, further⟩
    obtain rfl := Dialogue.nil_iff.mp further
    obtain rfl := getsNow.now
    have hears := Session.Hears.after isActive signals
    exact ⟨_, hears.trans (getsPublished.publish hears.isActive)⟩
  · rw [ElementResult.finish_of_leaf isJudged noScripts noResults]

/-- What a tester's input makes of a waiting node, and of the run. -/
theorem Element.replied_of_takeManual (visited started stopped : Instant)
    (input : Option Interaction) :
    let taken := (element.waiting schema visited started).takeManual input
    (∃ verdict, taken.1.verdict = some verdict) ∧ taken.1.scripts = [] ∧ taken.1.results = [] ∧
      ((if taken.2 then last.result.runStatus = .cancelled ∧ last.control.interrupted = true
        else last.result.runStatus = .running) →
        (element.awaited schema visited started stopped).Replied .completed
          { taken.1 with
            stop := some stopped, duration := taken.1.start.map stopped.millisSince }
          last (some input)) := by
  cases given : input.bind Interaction.manualResult with
  | none =>
      simp only [ElementResult.takeManual, ElementResult.Replied, given]
      exact ⟨⟨_, rfl⟩, rfl, rfl, fun running => ⟨trivial, rfl, running⟩⟩
  | some manual =>
      cases isStatus : manual.status with
      | finished =>
          simp only [ElementResult.takeManual, ElementResult.Replied, given, isStatus]
          exact ⟨⟨_, rfl⟩, rfl, rfl, fun running => ⟨trivial, rfl, running⟩⟩
      | aborted =>
          simp only [ElementResult.takeManual, ElementResult.Replied, given, isStatus]
          exact ⟨⟨_, rfl⟩, rfl, rfl, fun cancelled => ⟨trivial, rfl, cancelled⟩⟩
      | waiting =>
          simp only [ElementResult.takeManual, ElementResult.Replied, given, isStatus]
          exact ⟨⟨_, rfl⟩, rfl, rfl, fun running => ⟨trivial, rfl, running⟩⟩

theorem takeManualInput_replied {visited started : Instant} {reply : Option (Option Interaction)}
    (running : reply ≠ none →
      session.result.runStatus = .running ∧ session.control.status.isActive = true)
    (dialogue : Dialogue registry session history last)
    (yields : (takeManualInput site (element.waiting schema visited started) reply >>= fun taken =>
      closeElement site element taken.1 taken.2 context).Yields history ran) :
    (∀ exchange ∈ history,
      exchange.request ≠ .openInteraction ∧ exchange.request ≠ .awaitInteraction) ∧
    ∃ stopped ending result, ran = ⟨element, some result, ending, context⟩ ∧
      (element.awaited schema visited started stopped).Replied ending result last reply := by
  cases reply with
  | none =>
      rcases Program.yields_ask.mp yields with ⟨done, signals, rest, rfl, goesOn⟩
      rcases Dialogue.cons_iff.mp dialogue with ⟨published, gets, further⟩
      rcases closeElement_judged rfl rfl rfl (by simp) further goesOn with
        ⟨unasked, -, stopped, rfl⟩
      exact ⟨List.forall_mem_cons.mpr ⟨by simp, unasked⟩, stopped, _, _, rfl, rfl, rfl⟩
  | some input =>
      rcases running (by simp) with ⟨isRunning, isActive⟩
      have replied (stopped : Instant) (last : Session) :=
        @Element.replied_of_takeManual last element schema visited started stopped input
      simp only [takeManualInput, bind_assoc, pure_bind] at yields
      generalize (element.waiting schema visited started).takeManual input = taken
        at yields replied
      rcases taken with ⟨result, cancels⟩
      rcases Program.yields_ask.mp yields with ⟨done, signals, rest, rfl, goesOn⟩
      rcases Dialogue.cons_iff.mp dialogue with ⟨published, gets, further⟩
      have shown := gets.publish isActive
      rcases replied visited last with ⟨⟨verdict, isJudged⟩, noScripts, noResults, -⟩
      have close {reached : Session} {rest : List (Exchange (List Signal))}
          (status : if cancels then reached.result.runStatus = .cancelled ∧
              reached.control.interrupted = true
            else reached.result.runStatus = .running)
          (isActive : reached.control.status.isActive = true)
          (further : Dialogue registry reached rest last)
          (goesOn : (closeElement site element result .completed context).Yields rest ran) :
          (∀ exchange ∈ rest,
            exchange.request ≠ .openInteraction ∧ exchange.request ≠ .awaitInteraction) ∧
          ∃ stopped ending result, ran = ⟨element, some result, ending, context⟩ ∧
            (element.awaited schema visited started stopped).Replied ending result last
              (some input) := by
        rcases closeElement_judged isJudged noScripts noResults (by simp) further goesOn with
          ⟨unasked, hears, stopped, rfl⟩
        rcases hears isActive with ⟨signals, hears⟩
        refine ⟨unasked, stopped, _, _, rfl, (replied stopped last).2.2.2 ?_⟩
        cases cancels with
        | true =>
            exact ⟨hears.runStatus.trans status.1, by rw [hears.interrupted, status.2]; rfl⟩
        | false => exact hears.runStatus.trans status
      cases cancels with
      | false =>
          rcases close (shown.runStatus.trans isRunning) shown.isActive further goesOn with
            ⟨unasked, settled⟩
          exact ⟨List.forall_mem_cons.mpr ⟨by simp, unasked⟩, settled⟩
      | true =>
          rcases Program.yields_ask.mp goesOn with ⟨asked, later, others, rfl, closes⟩
          rcases Dialogue.cons_iff.mp further with ⟨cancelled, getsCancelled, further⟩
          rcases getsCancelled.cancelRun shown.isActive with ⟨isCancelled, isInterrupted, active⟩
          rcases close ⟨isCancelled, isInterrupted⟩ active further closes with ⟨unasked, settled⟩
          exact ⟨List.forall_mem_cons.mpr ⟨by simp, List.forall_mem_cons.mpr
            ⟨by simp, unasked⟩⟩, settled⟩

/-- The visit of a manual element tells that it waits, begins to wait, and waits once. -/
theorem runElement_meets (attended : setting.attended = true)
    (isManual : element.isManualLeaf = true) (isActive : session.control.status.isActive = true)
    (children : List Visitor) (dialogue : Dialogue registry session history last)
    (yields : (runElement setting site element schema children context).Yields history ran) :
    ∃ opening before heard reply closing shown opened replied visited started merged,
      history = opening ++
        ⟨.openInteraction, (), before⟩ :: ⟨.awaitInteraction, reply, heard⟩ :: closing ∧
      (∀ exchange ∈ opening,
        exchange.request ≠ .openInteraction ∧ exchange.request ≠ .awaitInteraction) ∧
      session.Hears (opening.flatMap Exchange.note) shown ∧
      Request.openInteraction.Gets registry shown before () opened ∧
      Request.awaitInteraction.Gets registry opened heard reply replied ∧
      Dialogue registry replied closing last ∧
      (takeManualInput site (element.waiting schema visited started) reply >>= fun taken =>
        closeElement site element taken.1 taken.2 merged).Yields closing ran := by
  rcases @runElement_eq_of_manual setting element schema site context attended isManual
    children with ⟨merged, isRun⟩
  rw [isRun] at yields
  rcases Program.yields_ask.mp yields with ⟨visited, s₁, _, rfl, yields₁⟩
  rcases Program.yields_ask.mp yields₁ with ⟨_, s₂, _, rfl, yields₂⟩
  rcases Program.yields_ask.mp yields₂ with ⟨started, s₃, _, rfl, yields₃⟩
  rcases Program.yields_ask.mp yields₃ with ⟨_, s₄, _, rfl, yields₄⟩
  rcases Program.yields_ask.mp yields₄ with ⟨_, before, _, rfl, yields₅⟩
  rcases Program.yields_ask.mp yields₅ with ⟨reply, heard, closing, rfl, closes⟩
  rcases Dialogue.cons_iff.mp dialogue with ⟨_, gets₁, dialogue₁⟩
  rcases Dialogue.cons_iff.mp dialogue₁ with ⟨_, gets₂, dialogue₂⟩
  rcases Dialogue.cons_iff.mp dialogue₂ with ⟨_, gets₃, dialogue₃⟩
  rcases Dialogue.cons_iff.mp dialogue₃ with ⟨shown, gets₄, dialogue₄⟩
  rcases Dialogue.cons_iff.mp dialogue₄ with ⟨opened, getsOpened, dialogue₅⟩
  rcases Dialogue.cons_iff.mp dialogue₅ with ⟨replied, getsReply, further⟩
  obtain rfl := gets₁.now
  obtain rfl := gets₃.now
  have hears₁ := Session.Hears.after isActive s₁
  have hears₂ := hears₁.trans (gets₂.publish hears₁.isActive)
  have hears₃ := hears₂.trans (.after hears₂.isActive s₃)
  have hears₄ := hears₃.trans (gets₄.publish hears₃.isActive)
  refine ⟨[⟨_, visited, s₁⟩, ⟨_, _, s₂⟩, ⟨_, started, s₃⟩, ⟨_, _, s₄⟩], before, heard, reply,
    closing, shown, opened, replied, visited, started, merged, rfl, by simp, ?_, getsOpened,
    getsReply, further, closes⟩
  simpa using hears₄

end Visits

/-- However clients pause, resume, interrupt and deliver, before a manual element of a job is waited
for, meanwhile and afterwards, what becomes of it is a matter of the last delivery since the wait
began and of whether there was an interruption by its end. -/
theorem Element.visit_handshake {registry : Registry ω} {setting : Setting} {session last : Session}
    {element : Element} {schema : Schema} {site : Site} {context : Context}
    {history : List (Exchange (List Signal))} {ran : ElementRun}
    (attended : setting.attended = true) (isManual : element.isManualLeaf = true)
    (hasSchema : element.schema = some schema)
    (visits : (schema.skippable && element.skip) = false)
    (inTurn : dependencyFailure element schema site.isTop site.siblings = none)
    (isActive : session.control.status.isActive = true)
    (dialogue : Dialogue registry session history last)
    (yields : (element.visit setting site context).Yields history ran) :
    element.Handshake schema last history ran := by
  rw [Element.visit_eq, visitElement_eq _ hasSchema visits inTurn] at yields
  rcases Program.yields_ask.mp yields with ⟨goesOn, signals, rest, rfl, visited⟩
  rcases Dialogue.cons_iff.mp dialogue with ⟨passed, gets, passing⟩
  have looked := gets.checkpoint isActive
  cases goesOn with
  | false =>
      rcases Program.yields_pure.mp visited with ⟨rfl, rfl⟩
      obtain rfl := Dialogue.nil_iff.mp passing
      exact .turnedBack looked
  | true =>
      rcases looked with ⟨hears, notInterrupted⟩
      rcases runElement_meets attended isManual hears.isActive _ passing visited with
        ⟨opening, before, heard, reply, closing, shown, opened, replied, visited, started, merged,
          rfl, unasked, hearsOpening, getsOpened, getsReply, further, closes⟩
      rcases getsOpened.openInteraction hearsOpening.isActive with
        ⟨isWaiting, nothing, isInterrupted, openedActive⟩
      have awaits := getsReply.awaitInteraction openedActive isWaiting
      -- Who has passed the checkpoint has been interrupted since, if at all.
      have notBefore : Signal.interrupt ∉ signals := by
        have nobody := hears.interrupted.symm.trans notInterrupted
        simpa using (Bool.or_eq_false_iff.mp nobody).2
      have flag : (opened.control.interrupted || decide (Signal.interrupt ∈ heard)) =
          decide (Signal.interrupt ∈ (⟨.checkpoint, true, signals⟩ :: opening).flatMap
            Exchange.note ++ before ++ heard) := by
        rw [isInterrupted, hearsOpening.interrupted, notInterrupted]
        simp [notBefore, Bool.or_assoc]
      rw [flag, nothing, Option.or_none] at awaits
      have running (isSome : reply ≠ none) : replied.result.runStatus = .running ∧
          replied.control.status.isActive = true := by
        split at awaits
        · exact absurd awaits isSome
        · exact awaits.2
      rcases takeManualInput_replied running further closes with
        ⟨unaskedClosing, stopped, ending, result, rfl, settled⟩
      refine @Element.Handshake.met _ _ _ (⟨.checkpoint, true, signals⟩ :: opening) _ _ _ _ _ _ _
        _ _ _ ?_ ?_ settled
      · exact List.forall_mem_cons.mpr
          ⟨by simp, List.forall_mem_append.mpr ⟨unasked, unaskedClosing⟩⟩
      · split
        · rename_i interrupted
          rwa [if_pos (decide_eq_true interrupted)] at awaits
        · rename_i free
          rw [if_neg (by simpa using free)] at awaits
          exact awaits.1

/-- An element for a tester to look at. -/
def Element.inspection : Element where
  id := "inspection"
  name := "Inspection"
  order := 0
  mode := .manual
  skip := false
  children := []
  scripts := []
  dependencies := []
  properties := []
  schema := some ⟨"schema", "Schema", 0, .none, true, true, .predecessor, false⟩

/-- The session of a job that runs. -/
def Session.running : Session :=
  { unattended with attended := true, control := { Control.initial with status := .running } }

/-- A machine that visits the element for a job. -/
def Machine.inspecting : Machine Unit ElementRun :=
  ((initial .empty (.initial 0 .empty ())).openSession .running).1.spawn 0
    (Element.inspection.visit .sample .top (.ofProperties []))

/-- What was delivered too early is as good as forgotten. -/
theorem Element.visit_handshake_of_early_delivery :
    let early : Interaction := ⟨some ⟨.aborted, some .failed, some "too early", none⟩⟩
    let timely : Interaction := ⟨some ⟨.finished, none, some "looks fine", some "tester"⟩⟩
    let told := Machine.inspecting.modifyControl 0 (Signal.interact early).act
    let asked := ((told.poll 0).modifyControl 0 Signal.pause.act).poll 0
    let answered := (asked.modifyControl 0 (Signal.interact timely).act).poll 0
    ∃ schema history last ran, answered.value? 0 = some ran ∧
      ran.result.map (fun result => (result.verdict, result.message)) =
        some (some .passed, some "looks fine") ∧
      Element.inspection.Handshake schema last history ran := by
  intro early timely told asked answered
  have comesTo : (answered.value? 0).map
      (fun ran => ran.result.map fun result => (result.verdict, result.message)) =
        some (some (some .passed, some "looks fine")) := by decide +kernel
  rcases Option.map_eq_some_iff.mp comesTo with ⟨ran, ended, isPassed⟩
  have begins : Machine.inspecting.Shows 0 0
      ⟨.running, .initial 0 .empty (),
        .ready (Element.inspection.visit .sample .top (.ofProperties []))⟩ := ⟨rfl, rfl, rfl⟩
  have turns : Machine.Turns 0 0 Machine.inspecting _ answered :=
    .poll (.signal (.poll (.signal (.poll (.signal .start _)) _)) _)
  rcases turns.exists_dialogue begins ended with ⟨history, last, dialogue, yields, -⟩
  exact ⟨_, history, last, ran, ended, isPassed,
    Element.visit_handshake rfl rfl rfl rfl rfl rfl dialogue yields⟩

end TestEngine
