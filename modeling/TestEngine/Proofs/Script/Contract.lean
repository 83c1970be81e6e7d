import TestEngine.Proofs.Protocol
import TestEngine.Proofs.Script.Law

/-!
# Contracts of visits

A contract relates the mark from which a visit begins to the mark that it reaches and to the abort
that it stops with, if it stops. A mark is what the script's result holds so far and the state of a
protocol. The fields of a contract say what single requests, responses and embedded results have to
respect; that all visits honor it follows once for all contracts, along the ways of putting visits
together.

A run that was told of an interruption has to give up, and so has one that a capability takes down.
What a run may still do on its way out is not to change the mark of a visit that has stopped.
-/

namespace TestEngine

variable {σ α β : Type}

/-! ### Interruptions and crashes -/

def Reply.isAbandoned : Reply α → Bool
  | .abandoned => true
  | _ => false

def Reply.isCrashed : Reply α → Bool
  | .crashed => true
  | _ => false

/-- Whether an answer tells a run that it was interrupted. -/
def Request.tells : (request : Request) → request.Answer → Bool
  | .checkpoint, goesOn => !goesOn
  | .acquire .., answer => answer = LockAnswer.cancelled
  | .perform _, reply => reply.isAbandoned
  | .execute _, (_, reply) => reply.isAbandoned
  | .awaitInteraction, input => input.isNone
  | _, _ => false

/-- Whether an answer is the failure of a capability that takes the whole run down. -/
def Request.crashes : (request : Request) → request.Answer → Bool
  | .perform _, reply => reply.isCrashed
  | .execute _, (_, reply) => reply.isCrashed
  | .verify .., verdict => verdict.isNone
  | _, _ => false

/-- A crash does not tell of an interruption. -/
theorem Request.untold_of_crashes (request : Request) {answer : request.Answer}
    (crashes : request.crashes answer = true) : request.tells answer = false := by
  cases request with
  | perform call =>
      cases answer with
      | crashed => rfl
      | returned _ => exact nomatch crashes
      | abandoned => exact nomatch crashes
  | execute call =>
      rcases answer with ⟨lines, reply⟩
      cases reply with
      | crashed => rfl
      | returned _ => exact nomatch crashes
      | abandoned => exact nomatch crashes
  | verify check property => rfl
  | _ => exact nomatch crashes

/-- Whether a request is one of those that the visits of steps make. -/
def Request.isOfVisit : Request → Bool
  | checkpoint | sleep _ | elapsed | now | acquire .. | release _ | perform _ | execute _
  | verify .. | moveTo _ => true
  | _ => false

/-! ### The ends of scripts -/

namespace Abort

def ending : Abort → Ending
  | interrupted => .interrupted
  | crashed => .crashed
  | failed _ => .completed

/-- The verdict of a script that stopped with an abort. Of a crashed one there is none. -/
def verdict : Abort → Option Verdict
  | interrupted => some .aborted
  | crashed => none
  | failed _ => some .failed

/-- The abort of the visit around an embedded script that stopped with an abort. -/
def around (error : EngineError) : Abort → Abort
  | failed _ => failed error
  | reason => reason

end Abort

/-- A script result that stands for a run of steps which stopped as given. -/
structure ScriptResult.Concludes (result : ScriptResult) (stop : Option Abort) : Prop where
  verdict : result.verdict = stop.elim (some .passed) Abort.verdict
  silent : stop = none → result.message = none
  isOver : stop ≠ some .crashed → result.stop.isSome
  timed : stop ≠ some .crashed → result.duration.isSome

/-! ### Contracts -/

/-- What a visit begins with and what it leaves behind: the entries of the script's result and the
state of a protocol. -/
structure Mark (σ : Type) where
  entries : List ScriptEntry
  state : σ

/-- The mark once a request was answered. -/
def Mark.answered (mark : Mark σ) (protocol : Protocol σ) (request : Request)
    (answer : request.Answer) : Mark σ :=
  { mark with state := protocol.after mark.state request answer }

def Mark.enter (mark : Mark σ) (entry : ScriptEntry) : Mark σ :=
  { mark with entries := mark.entries ++ [entry] }

/-- What visits keep to: the requests that they make, and what becomes of a mark until a visit goes
on or stops with an abort. -/
structure Contract (σ : Type) where
  protocol : Protocol σ
  keeps : Mark σ → Option Abort → Mark σ → Prop
  refl (mark : Mark σ) : keeps mark none mark
  trans {first middle last : Mark σ} {stop : Option Abort} (before : keeps first none middle)
    (after : keeps middle stop last) : keeps first stop last
  aborts (mark : Mark σ) (error : EngineError) : keeps mark (some (.failed error)) mark
  /-- What is still asked after an abort leaves the entries alone. -/
  settles {first middle last : Mark σ} {reason : Abort} (before : keeps first (some reason) middle)
    (after : keeps middle none last) (sameEntries : last.entries = middle.entries) :
    keeps first (some reason) last
  /-- A run may be told of its interruption more than once. -/
  again {first middle last : Mark σ} (before : keeps first (some .interrupted) middle)
    (after : keeps middle (some .interrupted) last) (sameEntries : last.entries = middle.entries) :
    keeps first (some .interrupted) last
  allows (state : σ) {request : Request} (ofVisit : request.isOfVisit) :
    protocol.allows state request
  answered (mark : Mark σ) {request : Request} (ofVisit : request.isOfVisit)
    {answer : request.Answer} (untold : request.tells answer = false)
    (uncrashed : request.crashes answer = false) :
    keeps mark none (mark.answered protocol request answer)
  told (mark : Mark σ) {request : Request} (ofVisit : request.isOfVisit) {answer : request.Answer}
    (told : request.tells answer = true) :
    keeps mark (some .interrupted) (mark.answered protocol request answer)
  crashed (mark : Mark σ) {request : Request} (ofVisit : request.isOfVisit)
    {answer : request.Answer} (crashes : request.crashes answer = true) :
    keeps mark (some .crashed) (mark.answered protocol request answer)
  passes (mark : Mark σ) {response : ActionResponse} (passed : response.status = .passed) :
    keeps mark none (mark.enter (.action response))
  fails (mark : Mark σ) {response : ActionResponse} (failed : response.status = .failed)
    (error : EngineError) : keeps mark (some (.failed error)) (mark.enter (.action response))
  embeds (mark : Mark σ) {stop : Option Abort} {result : ScriptResult} {reached : σ}
    (ran : keeps ⟨[], mark.state⟩ stop ⟨result.entries, reached⟩)
    (concludes : result.Concludes stop) (notCrashed : stop ≠ some .crashed) (error : EngineError) :
    keeps mark (stop.map (Abort.around error))
      ({ mark with state := reached }.enter (.script result))
  crashes (mark : Mark σ) {inner : List ScriptEntry} {reached : σ}
    (ran : keeps ⟨[], mark.state⟩ (some .crashed) ⟨inner, reached⟩) :
    keeps mark (some .crashed) { mark with state := reached }

theorem Contract.noted (contract : Contract σ) (mark : Mark σ) (moment : Calendar.Instant) :
    contract.keeps mark none (mark.answered contract.protocol .now moment) :=
  contract.answered mark rfl rfl rfl

/-- What a run of a script leaves behind that keeps to a contract. -/
def ScriptRun.Keeps (contract : Contract σ) (ran : ScriptRun) (before reached : σ) : Prop :=
  ∃ stop, contract.keeps ⟨[], before⟩ stop ⟨ran.result.entries, reached⟩ ∧
    ran.result.Concludes stop ∧ ran.ending = stop.elim .completed Abort.ending

/-- A way of running a script that keeps to a contract. -/
def Contract.Runs (contract : Contract σ) (run : Context → Program ScriptRun) : Prop :=
  ∀ context state, (run context).Obeys contract.protocol state fun ran reached =>
    ran.Keeps contract state reached

def Frame.mark (frame : Frame) (state : σ) : Mark σ := ⟨frame.entries, state⟩

namespace Visit

variable {contract : Contract σ}

/-- The abort that a visit stopped with, if it did. -/
def stop : Except Abort α → Option Abort
  | .ok _ => none
  | .error reason => some reason

/-- A visit that keeps to a contract, from wherever it begins. -/
def Honors (contract : Contract σ) (visit : Visit α) : Prop :=
  ∀ frame state, visit.Obeys contract.protocol frame state fun outcome after reached =>
    contract.keeps (frame.mark state) (stop outcome) (after.mark reached)

/-- A visit that gives up because the run was interrupted, and enters nothing. -/
def GivesUp (contract : Contract σ) (visit : Visit α) : Prop :=
  ∀ frame state, visit.Obeys contract.protocol frame state fun outcome after reached =>
    outcome = .error .interrupted ∧ after.entries = frame.entries ∧
      (contract.keeps (frame.mark state) none (after.mark reached) ∨
        contract.keeps (frame.mark state) (some .interrupted) (after.mark reached))

/-- A cleanup, which always goes well and enters nothing. -/
def Tidies (contract : Contract σ) (cleanup : Visit Unit) : Prop :=
  ∀ frame state, cleanup.Obeys contract.protocol frame state fun outcome after reached =>
    outcome = .ok () ∧ after.entries = frame.entries ∧
      contract.keeps (frame.mark state) none (after.mark reached)

theorem tidies_modifyStore (change : Store → Store) : (modifyStore change).Tidies contract :=
  fun frame state => ⟨rfl, rfl, contract.refl (frame.mark state)⟩

theorem tidies_release (name : String) : Tidies contract (ask (.release name)) :=
  fun frame state =>
    ⟨contract.allows state rfl, fun _ =>
      ⟨rfl, rfl, contract.answered (frame.mark state) rfl rfl rfl⟩⟩

namespace Honors

/-! ### Ways of putting visits together -/

theorem pure (value : α) : Honors contract (Pure.pure value : Visit α) :=
  fun frame state => contract.refl (frame.mark state)

theorem fail (error : EngineError) : Honors contract (Visit.fail error : Visit α) :=
  fun frame state => contract.aborts (frame.mark state) error

theorem bind {visit : Visit α} {next : α → Visit β} (first : visit.Honors contract)
    (rest : ∀ value, (next value).Honors contract) : Honors contract (visit >>= next) := by
  intro frame state
  rw [obeys_bind]
  refine (first frame state).imp ?_
  rintro (reason | value) middle between kept
  · exact kept
  · exact (rest value middle between).imp fun _ _ _ keptOn => contract.trans kept keptOn

theorem frame : Honors contract Visit.frame :=
  fun frame state => contract.refl (frame.mark state)

/-- The frame may be changed as long as nothing is entered. -/
theorem modify {change : Frame → Frame}
    (sameEntries : ∀ frame : Frame, (change frame).entries = frame.entries) :
    Honors contract (Visit.modify change) := by
  intro frame state
  have same : (change frame).mark state = frame.mark state :=
    congrArg (Mark.mk · state) (sameEntries frame)
  rw [obeys_modify, same]
  exact contract.refl (frame.mark state)

theorem context : Honors contract Visit.context := bind frame fun _ => pure _

theorem store : Honors contract Visit.store := bind context fun _ => pure _

theorem modifyStore (change : Store → Store) : Honors contract (Visit.modifyStore change) :=
  modify fun _ => rfl

theorem put (property : Property) : Honors contract (Visit.put property) := modifyStore _

theorem ofExcept (outcome : Except EngineError α) : Honors contract (Visit.ofExcept outcome) := by
  cases outcome with
  | ok value => exact pure value
  | error error => exact fail error

/-! ### Requests -/

/-- What comes after a request has to give up if the answer tells of an interruption, and to do
nothing more if it is a crash. -/
theorem ask {request : Request} {next : request.Answer → Visit α} (ofVisit : request.isOfVisit)
    (goesOn : ∀ answer, request.tells answer = false → request.crashes answer = false →
      (next answer).Honors contract)
    (givesUp : ∀ answer, request.tells answer = true → (next answer).GivesUp contract)
    (crashes : ∀ answer, request.crashes answer = true → next answer = Visit.abort .crashed) :
    Honors contract (Visit.ask request >>= next) := by
  intro frame state
  refine obeys_bind.mpr (obeys_ask.mpr ⟨contract.allows state ofVisit, fun answer => ?_⟩)
  cases tells : request.tells answer with
  | false =>
      dsimp only
      cases crashed : request.crashes answer with
      | false =>
          have answered := contract.answered (frame.mark state) ofVisit tells crashed
          exact (goesOn answer tells crashed frame _).imp fun _ _ _ kept =>
            contract.trans answered kept
      | true =>
          rw [crashes answer crashed]
          exact contract.crashed (frame.mark state) ofVisit crashed
  | true =>
      have told := contract.told (frame.mark state) ofVisit tells
      -- On its way out the visit may be told of the interruption a second time.
      refine (givesUp answer tells frame _).imp ?_
      rintro _ after reached ⟨rfl, sameEntries, kept | kept⟩
      · exact contract.settles told kept sameEntries
      · exact contract.again told kept sameEntries

theorem quiet {request : Request} (ofVisit : request.isOfVisit)
    (untold : ∀ answer, request.tells answer = false)
    (uncrashed : ∀ answer, request.crashes answer = false) :
    Honors contract (Visit.ask request) :=
  fun frame state => ⟨contract.allows state ofVisit, fun answer =>
    contract.answered (frame.mark state) ofVisit (untold answer) (uncrashed answer)⟩

end Honors

namespace GivesUp

theorem abort : GivesUp contract (Visit.abort .interrupted : Visit α) :=
  fun frame state => ⟨rfl, rfl, .inl (contract.refl (frame.mark state))⟩

theorem bind {visit : Visit α} {next : α → Visit β} (first : visit.GivesUp contract) :
    GivesUp contract (visit >>= next) := by
  intro frame state
  rw [obeys_bind]
  refine (first frame state).imp ?_
  rintro _ after reached ⟨rfl, gaveUp⟩
  exact ⟨rfl, gaveUp⟩

theorem logged (level : LogLevel) (messages : List String) :
    GivesUp contract (do Visit.log level messages; (Visit.abort .interrupted : Visit α)) :=
  fun frame state => ⟨contract.allows state rfl, fun _ =>
    ⟨rfl, rfl, .inl (contract.answered (frame.mark state) rfl rfl rfl)⟩⟩

/-- A run that has given up a lock looks once more at its interruption. -/
theorem checked : GivesUp contract (do Visit.checkpoint; (Visit.abort .interrupted : Visit α)) := by
  intro frame state
  refine ⟨contract.allows state rfl, fun goesOn => ?_⟩
  cases goesOn with
  | true => exact ⟨rfl, rfl, .inl (contract.answered (frame.mark state) rfl rfl rfl)⟩
  | false => exact ⟨rfl, rfl, .inr (contract.told (frame.mark state) rfl rfl)⟩

end GivesUp

namespace Honors

theorem log (level : LogLevel) (messages : List String) :
    Honors contract (Visit.log level messages) :=
  bind (quiet rfl (fun _ => rfl) fun _ => rfl) fun _ =>
    bind context fun _ => modify fun _ => rfl

theorem moveTo (change : Context → Context) : Honors contract (Visit.moveTo change) :=
  bind context fun _ => bind (modify fun _ => rfl) fun _ =>
    quiet rfl (fun _ => rfl) fun _ => rfl

theorem checkpoint : Honors contract Visit.checkpoint := by
  refine ask rfl (fun goesOn untold _ => ?_) (fun goesOn told => ?_)
    fun _ crashes => nomatch crashes
  · obtain rfl : goesOn = true := by simpa [Request.tells] using untold
    exact pure _
  · obtain rfl : goesOn = false := by simpa [Request.tells] using told
    exact .abort

theorem sleep (duration : Nat) : Honors contract (Visit.ask (.sleep duration)) :=
  quiet rfl (fun _ => rfl) fun _ => rfl

theorem elapsed : Honors contract (Visit.ask .elapsed) := quiet rfl (fun _ => rfl) fun _ => rfl

/-! ### Steps that hold steps -/

theorem sequence {steps : List (Visit Flow)} (honor : ∀ step ∈ steps, step.Honors contract) :
    Honors contract (Visit.sequence steps) := by
  induction steps with
  | nil => exact pure _
  | cons step rest ih =>
      rw [List.forall_mem_cons] at honor
      refine bind honor.1 fun flow => ?_
      cases flow with
      | next => exact ih honor.2
      | leave => exact pure _

theorem condition (guard : Guard) {body : Visit Flow} (honors : body.Honors contract) :
    Honors contract (Visit.condition guard body) := by
  refine bind store fun properties => ?_
  split
  · exact honors
  · exact pure _

theorem breakLoop (guards : List Guard) : Honors contract (Visit.breakLoop guards) :=
  bind store fun _ => pure _

theorem waitBefore (wait : UInt64) (iteration : Nat) :
    Honors contract (Visit.waitBefore wait iteration) := by
  rw [Visit.waitBefore]
  split
  · exact bind (sleep _) fun _ => checkpoint
  · exact pure _

theorem isOver (deadline : Option Nat) : Honors contract (Visit.isOver deadline) := by
  cases deadline with
  | none => exact pure _
  | some deadline => exact bind elapsed fun _ => pure _

theorem bindIndex (iteration : Nat) (index : Option String) :
    Honors contract (Visit.bindIndex iteration index) := by
  cases index with
  | none => exact pure _
  | some index => exact put _

theorem iterate (bounds : LoopBounds) (deadline : Option Nat) {body : Visit Flow}
    (honors : body.Honors contract) (remaining iteration : Nat) :
    Honors contract (Visit.iterate bounds deadline body remaining iteration) := by
  induction remaining generalizing iteration with
  | zero => exact pure _
  | succ remaining ih =>
      rw [Visit.iterate]
      refine bind (waitBefore _ _) fun _ => bind (isOver _) fun isOver => ?_
      split
      · exact pure _
      · refine bind (bindIndex _ _) fun _ => bind honors fun flow => ?_
        cases flow with
        | next => exact ih _
        | leave => exact pure _

theorem setDeadline (maxDuration : UInt64) :
    Honors contract (Visit.setDeadline maxDuration) := by
  rw [Visit.setDeadline]
  split
  · exact bind elapsed fun _ => pure _
  · exact pure _

theorem loop (bounds : LoopBounds) {body : Visit Flow} (honors : body.Honors contract) :
    Honors contract (Visit.loop bounds body) :=
  bind (setDeadline _) fun _ => iterate _ _ honors _ _

theorem eachItem (element : String) {body : Visit Flow} (honors : body.Honors contract)
    (items : List Property) : Honors contract (Visit.eachItem element body items) := by
  induction items with
  | nil => exact pure _
  | cons item rest ih =>
      refine bind (put _) fun _ => bind honors fun flow => ?_
      cases flow with
      | next => exact ih
      | leave => exact pure _

/-- A cleanup does not look at what went before it: an abort stays the one that it was. -/
theorem attempt {visit : Visit α} {cleanup : Except Abort α → Visit Unit}
    (honors : visit.Honors contract) (tidies : ∀ outcome, (cleanup outcome).Tidies contract) :
    Honors contract (do
      let outcome ← Visit.attempt visit
      cleanup outcome
      Visit.conclude outcome) := by
  intro frame state
  rw [obeys_bind, obeys_attempt]
  refine (honors frame state).imp fun outcome middle between kept => ?_
  refine obeys_bind.mpr ((tidies outcome middle between).imp ?_)
  rintro _ tidied reached ⟨rfl, sameEntries, tidy⟩
  refine obeys_conclude.mpr ?_
  cases outcome with
  | ok value => exact contract.trans kept tidy
  | error reason => exact contract.settles kept tidy sameEntries

theorem foreach (list element : String) {body : Visit Flow} (honors : body.Honors contract) :
    Honors contract (Visit.foreach list element body) :=
  bind store fun _ => bind (ofExcept _) fun items =>
    attempt (eachItem element honors items) fun _ => tidies_modifyStore _

theorem lock (name : String) (timeout : Nat) {body : Visit Flow} (honors : body.Honors contract) :
    Honors contract (Visit.lock name timeout body) := by
  refine ask rfl (fun answer untold _ => ?_) (fun answer told => ?_)
    fun _ crashes => nomatch crashes
  · cases answer with
    | granted => exact attempt honors fun _ => tidies_release name
    | timedOut => exact fail _
    | cancelled => exact nomatch untold
  · obtain rfl : answer = .cancelled := by simpa [Request.tells] using told
    exact .checked

/-! ### Steps that call capabilities -/

theorem waitAfter (delay : Option UInt64) : Honors contract (Visit.waitAfter delay) := by
  cases delay with
  | none => exact pure _
  | some delay => exact sleep _

theorem record {response : ActionResponse} (passed : response.status = .passed) :
    Honors contract (Visit.record (.action response)) :=
  fun frame state => contract.passes (frame.mark state) passed

theorem enterResponse (action : Action) (response : ActionResponse) :
    Honors contract (Visit.enterResponse action response) := by
  rw [Visit.enterResponse]
  split
  · rename_i failed
    exact fun frame state => contract.fails (frame.mark state) failed _
  · rename_i passed
    exact bind (modifyStore _) fun _ => bind (record passed) fun _ => pure _

theorem takeReply {reply : Reply (Except EngineError α)}
    (notAbandoned : reply.isAbandoned = false) (notCrashed : reply.isCrashed = false) :
    Honors contract (Visit.takeReply reply) := by
  rcases reply with (error | answer) | _ | _
  · exact fail error
  · exact pure answer
  · exact nomatch notAbandoned
  · exact nomatch notCrashed

theorem action (setting : Setting) (action : Action) :
    Honors contract (Visit.action setting action) := by
  refine bind (ofExcept _) fun _ => bind store fun _ => bind (ofExcept _) fun _ =>
    bind context fun _ =>
      ask rfl (fun reply untold uncrashed => ?_) (fun reply told => ?_) fun reply crashes => ?_
  · exact bind (takeReply untold uncrashed) fun _ => bind (waitAfter _) fun _ =>
      enterResponse action _
  · cases reply with
    | returned answer => exact nomatch told
    | abandoned => exact .bind .abort
    | crashed => exact nomatch told
  · cases reply with
    | returned answer => exact nomatch crashes
    | abandoned => exact nomatch crashes
    | crashed => rfl

theorem takeVerification (message : String) (answer : Except EngineError Unit) :
    Honors contract (Visit.takeVerification message (some answer)) := by
  cases answer with
  | ok _ => exact pure _
  | error error =>
      rw [Visit.takeVerification.eq_def]
      split
      · exact pure _
      · exact fail _
      · exact fail _
      · exact nomatch ‹some _ = none›

theorem assertion (setting : Setting) (assertion : Assertion) :
    Honors contract (Visit.assertion setting assertion) := by
  rw [Visit.assertion]
  split
  · exact fail _
  · split
    · rw [Visit.verify]
      split
      · refine bind store fun _ => bind (ofExcept _) fun _ =>
          ask rfl (fun answer _ uncrashed => ?_) (fun _ told => nomatch told)
            fun answer crashes => ?_
        · cases answer with
          | none => exact nomatch uncrashed
          | some answer => exact takeVerification _ answer
        · cases answer with
          | none => rfl
          | some answer => exact nomatch crashes
      · exact fail _
    · exact pure _

theorem takeFunctionReply (name : String) (lines : List String)
    {reply : Reply (Except EngineError (List Property))}
    (notAbandoned : reply.isAbandoned = false) (notCrashed : reply.isCrashed = false) :
    Honors contract (Visit.takeFunctionReply name lines reply) := by
  cases reply with
  | returned answer => exact bind (log _ _) fun _ => ofExcept _
  | abandoned => exact nomatch notAbandoned
  | crashed => exact nomatch notCrashed

theorem function (setting : Setting) (function : Function) :
    Honors contract (Visit.function setting function) := by
  rw [Visit.function]
  split
  · refine bind store fun _ => bind (ofExcept _) fun _ =>
      ask rfl (fun answer untold uncrashed => ?_) (fun answer told => ?_) fun answer crashes => ?_
    · exact bind (takeFunctionReply _ _ untold uncrashed) fun _ => bind (modifyStore _) fun _ =>
        pure _
    · rcases answer with ⟨lines, reply⟩
      cases reply with
      | returned answer => exact nomatch told
      | abandoned => exact .bind (.logged _ _)
      | crashed => exact nomatch told
    · rcases answer with ⟨lines, reply⟩
      cases reply with
      | returned answer => exact nomatch crashes
      | abandoned => exact nomatch crashes
      | crashed => rfl
  · exact fail _

/-! ### Steps that change properties or write lines -/

theorem propertyAction (action : PropertyAction) :
    Honors contract (Visit.propertyAction action) := by
  refine bind store fun properties => bind (modifyStore _) fun _ => ?_
  split
  · exact pure _
  · exact fail _

theorem logger (level : LogLevel) (children : List Step) :
    Honors contract (Visit.logger level children) :=
  bind store fun _ => bind (log _ _) fun _ => pure _

theorem textMessage (message : TextMessage) : Honors contract (Visit.textMessage message) :=
  bind store fun _ => bind (log _ _) fun _ => pure _

/-! ### Scripts -/

/-- An embedded script is entered however it ended, unless it crashed. -/
theorem embed (name : String) {run : Context → Program ScriptRun} (runs : contract.Runs run) :
    Honors contract (Visit.embed name run) := by
  refine bind context fun context => ?_
  intro frame state
  refine obeys_bind.mpr (obeys_lift.mpr ((runs context state).imp ?_))
  rintro ⟨result, ending, _⟩ reached ⟨stop, kept, concludes, rfl⟩
  have enters (notCrashed : stop ≠ some .crashed) (error : EngineError) :=
    contract.embeds (frame.mark state) kept concludes notCrashed error
  rcases stop with _ | _ | _ | error
  · have verdict : result.verdict = some .passed := concludes.verdict
    have notFailed : ¬result.isFailed := by
      simp [ScriptResult.isFailed, verdict, Verdict.isFailed, Verdict.isFailure]
    simp only [Option.elim_none, notFailed, obeys_bind, obeys_modify, Visit.record]
    exact enters (by simp) (.testScript "")
  · exact enters (by simp) (.testScript "")
  · exact contract.crashes (frame.mark state) kept
  · have verdict : result.verdict = some .failed := concludes.verdict
    have isFailed : result.isFailed := by
      simp [ScriptResult.isFailed, verdict, Verdict.isFailed, Verdict.isFailure]
    simp only [Option.elim_some, Abort.ending, isFailed, obeys_bind, obeys_modify, Visit.record]
    exact enters (by simp) _

end Honors

theorem completeScript_keeps {result : ScriptResult} {verdict : Verdict} {message : Option String}
    {ending : Ending} {context : Context} {stop : Option Abort} {before state : σ}
    (kept : contract.keeps ⟨[], before⟩ stop ⟨result.entries, state⟩)
    (started : result.start.isSome)
    (hasVerdict : some verdict = stop.elim (some .passed) Abort.verdict)
    (silent : stop = none → message = none)
    (hasEnding : ending = stop.elim .completed Abort.ending) :
    (completeScript result verdict message ending context).Obeys contract.protocol state
      fun ran reached => ran.Keeps contract before reached := by
  have timed (now : Calendar.Instant) : (result.start.map now.millisSince).isSome := by
    simpa using started
  refine ⟨contract.allows state rfl, fun now =>
    ⟨stop, ?_, ⟨hasVerdict, silent, fun _ => rfl, fun _ => timed now⟩, hasEnding⟩⟩
  cases stop with
  | none => exact contract.trans kept (contract.noted _ now)
  | some reason => exact contract.settles kept (contract.noted _ now) rfl

theorem concludeScript_keeps {result : ScriptResult} {outcome : Except Abort Flow}
    {context : Context} {before state : σ} (unjudged : result.verdict = none)
    (started : result.start.isSome)
    (kept : contract.keeps ⟨[], before⟩ (stop outcome) ⟨result.entries, state⟩) :
    (concludeScript result outcome context).Obeys contract.protocol state
      fun ran reached => ran.Keeps contract before reached := by
  rcases outcome with (_ | _ | error) | flow
  · exact completeScript_keeps kept started rfl nofun rfl
  · exact ⟨some .crashed, kept, ⟨unjudged, nofun, absurd rfl, absurd rfl⟩, rfl⟩
  · exact completeScript_keeps kept started rfl nofun rfl
  · exact completeScript_keeps kept started rfl (fun _ => rfl) rfl

theorem runScript_runs (id name : String) {steps : Visit Flow} (honors : steps.Honors contract) :
    contract.Runs (runScript id name steps) := by
  intro context state
  refine Program.obeys_bind.mpr
    ⟨contract.allows state rfl, fun start => Program.obeys_bind.mpr ?_⟩
  have visited : Honors contract (do
      moveTo fun context => context.enterScript name
      steps) := .bind (.moveTo _) fun _ => honors
  refine Program.Obeys.imp (visited ⟨context, [], []⟩ _) ?_
  rintro ⟨outcome, frame⟩ middle kept
  exact concludeScript_keeps rfl rfl (contract.trans (contract.noted ⟨[], state⟩ start) kept)

end Visit

/-- The visits of all steps keep to a contract. -/
theorem Contract.law (contract : Contract σ) (setting : Setting) :
    VisitLaw setting (fun _ => True) (Visit.Honors contract) (Visit.Honors contract)
      fun _ run => contract.Runs run where
  step _ _ entered := .bind .checkpoint fun _ => .bind (.moveTo _) fun _ => entered
  sequence := .sequence
  script script _ := Visit.runScript_runs script.id script.name
  execution honors := honors
  condition guard _ := .condition guard
  loop _ _ := .loop _
  foreach list element _ := .foreach list element
  lock name timeout _ := .lock name timeout
  embed script _ := .embed script.name
  breakLoop := .breakLoop
  action := .action setting
  assertion := .assertion setting
  function := .function setting
  propertyAction := .propertyAction
  logger := .logger
  textMessage := .textMessage

theorem Step.visit_honors (contract : Contract σ) (setting : Setting) (step : Step) :
    (step.visit setting).Honors contract :=
  (contract.law setting).visit step (step.everyLoop_of_forall fun _ => trivial)

theorem Script.run_runs (contract : Contract σ) (setting : Setting) (script : Script) :
    contract.Runs (script.run setting) :=
  (contract.law setting).run script (script.everyLoop_of_forall fun _ => trivial)

end TestEngine
