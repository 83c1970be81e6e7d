import TestEngine.Proofs.Conduct
import TestEngine.Proofs.Script.Law

/-!
# Soundness of script results

A script that ran to its end either has failed, or everything in its result has passed at any depth
of embedding. The invariant that carries this is one on frames: as long as visits go well,
everything entered so far has passed. A visit that enters a failure therefore has to stop with an
abort, and no frame on the way up may take the abort for something else.
-/

namespace TestEngine

/-- A script that passed, with all actions and all embedded scripts in it. -/
inductive ScriptResult.Passed : ScriptResult → Prop
  | intro {result : ScriptResult} (verdict : result.verdict = some .passed)
      (actions : ∀ response, .action response ∈ result.entries → response.status = .passed)
      (scripts : ∀ inner, .script inner ∈ result.entries → inner.Passed) : result.Passed

/-- An action that passed, or a script that passed with everything in it. -/
def ScriptEntry.Passed : ScriptEntry → Prop
  | .action response => response.status = .passed
  | .script result => result.Passed

theorem ScriptResult.passed_iff {result : ScriptResult} :
    result.Passed ↔
      result.verdict = some .passed ∧ ∀ entry ∈ result.entries, entry.Passed := by
  constructor
  · rintro ⟨verdict, actions, scripts⟩
    refine ⟨verdict, fun entry entryMem => ?_⟩
    cases entry with
    | action response => exact actions response entryMem
    | script inner => exact scripts inner entryMem
  · rintro ⟨verdict, entries⟩
    exact .intro verdict (fun _ => entries _) (fun _ => entries _)

/-- What the run of a script may leave behind. -/
structure ScriptRun.Sound (ran : ScriptRun) (script : Script) : Prop where
  scriptId : ran.result.scriptId = script.id
  name : ran.result.name = script.name
  outcome : ran.ending = .completed → ran.result.isFailed ∨ ran.result.Passed

/-- A way of running a script that keeps to the conduct of runs and publishes nothing. -/
def Script.RunsSoundly (script : Script) (run : Context → Program ScriptRun) : Prop :=
  ∀ context good standing, standing.ended = none →
    (run context).Obeys (conduct good) standing fun ran reached =>
      standing.Remains reached ∧ ran.Sound script

def Frame.Clean (frame : Frame) : Prop := ∀ entry ∈ frame.entries, entry.Passed

namespace Visit

variable {α β : Type} {before between after : Prop}

/-- A visit that keeps to the conduct of runs, publishes nothing, and goes well only as long as
nothing has failed. It may rely on the run not being interrupted before it begins if `before` holds,
and others may rely on it after a visit that went well if `after` holds. -/
def Sound (before after : Prop) (visit : Visit α) : Prop :=
  ∀ good frame standing, standing.ended = none → (before → standing.clear = true) →
    frame.Clean →
      visit.Obeys (conduct good) frame standing fun outcome frame reached =>
        standing.Remains reached ∧
          ∀ value, outcome = .ok value → frame.Clean ∧ (after → reached.clear = true)

/-- A cleanup, which always goes well and keeps what is entered. -/
def Tidy (cleanup : Visit Unit) : Prop :=
  ∀ good frame standing, standing.ended = none →
    cleanup.Obeys (conduct good) frame standing fun outcome tidied reached =>
      outcome = .ok () ∧ tidied.entries = frame.entries ∧ standing.Remains reached

theorem tidy_modifyStore (change : Store → Store) : (modifyStore change).Tidy :=
  fun _ _ _ underWay => ⟨rfl, rfl, rfl, underWay⟩

theorem tidy_release (name : String) : Tidy (ask (.release name)) :=
  fun _ _ _ underWay => ⟨⟨underWay, trivial⟩, fun _ => ⟨rfl, rfl, rfl, underWay⟩⟩

namespace Sound

theorem pure (value : α) : Sound before before (Pure.pure value) := by
  intro good frame standing underWay clear clean
  exact ⟨⟨rfl, underWay⟩, fun _ _ => ⟨clean, clear⟩⟩

theorem abort (reason : Abort) : Sound before after (Visit.abort reason : Visit α) := by
  intro good frame standing underWay clear clean
  exact ⟨⟨rfl, underWay⟩, by simp⟩

theorem fail (error : EngineError) : Sound before after (Visit.fail error : Visit α) := abort _

theorem bind {visit : Visit α} {next : α → Visit β} (first : Sound before between visit)
    (rest : ∀ value, Sound between after (next value)) : Sound before after (visit >>= next) := by
  intro good frame standing underWay clear clean
  rw [obeys_bind]
  refine (first good frame standing underWay clear clean).imp ?_
  rintro (reason | value) frame middle ⟨remains, went⟩
  · exact ⟨remains, by simp⟩
  · rcases went value rfl with ⟨clean, clear⟩
    refine (rest value good frame middle remains.2 clear clean).imp ?_
    rintro outcome frame reached ⟨stays, went⟩
    exact ⟨remains.trans stays, went⟩

theorem weaken {visit : Visit α} (sound : Sound False after visit) : Sound before after visit :=
  fun good frame standing underWay _ clean => sound good frame standing underWay False.elim clean

theorem lax {visit : Visit α} (sound : Sound before after visit) : Sound before False visit := by
  intro good frame standing underWay clear clean
  refine (sound good frame standing underWay clear clean).imp ?_
  rintro outcome frame reached ⟨remains, went⟩
  exact ⟨remains, fun value ok => ⟨(went value ok).1, False.elim⟩⟩

theorem ask {request : Request}
    (allowed : ∀ good standing, standing.ended = none → (before → standing.clear = true) →
      (conduct good).allows standing request)
    (remains : ∀ (standing : Standing) answer, standing.ended = none →
      standing.Remains (standing.after request answer)) :
    Sound before False (Visit.ask request) := by
  intro good frame standing underWay clear clean
  rw [obeys_ask]
  exact ⟨allowed good standing underWay clear, fun answer =>
    ⟨remains standing answer underWay, fun _ _ => ⟨clean, False.elim⟩⟩⟩

theorem quiet {request : Request} (quiet : request.isQuiet) :
    Sound before False (Visit.ask request) :=
  ask (fun _ _ underWay _ => conduct_allows_of_isQuiet underWay quiet)
    fun _ answer underWay => Standing.remains_after_of_isQuiet underWay quiet answer

theorem frame : Sound before before Visit.frame := by
  intro good frame standing underWay clear clean
  exact ⟨⟨rfl, underWay⟩, fun _ _ => ⟨clean, clear⟩⟩

/-- The frame may be changed as long as nothing that failed is entered. -/
theorem modify {change : Frame → Frame}
    (keeps : ∀ frame : Frame, frame.Clean → (change frame).Clean) :
    Sound before before (Visit.modify change) := by
  intro good frame standing underWay clear clean
  exact ⟨⟨rfl, underWay⟩, fun _ _ => ⟨keeps frame clean, clear⟩⟩

theorem context : Sound before before Visit.context := bind frame fun _ => pure _

theorem store : Sound before before Visit.store := bind context fun _ => pure _

theorem modifyStore (change : Store → Store) : Sound before before (Visit.modifyStore change) :=
  modify fun _ clean => clean

theorem put (property : Property) : Sound before before (Visit.put property) := modifyStore _

theorem ofExcept (outcome : Except EngineError α) :
    Sound before before (Visit.ofExcept outcome) := by
  cases outcome with
  | ok value => exact pure value
  | error error => exact fail error

theorem record {entry : ScriptEntry} (passed : entry.Passed) :
    Sound before before (Visit.record entry) := by
  refine modify fun frame clean entered enteredMem => ?_
  rcases List.mem_append.mp enteredMem with old | new
  · exact clean entered old
  · rw [List.mem_singleton.mp new]
    exact passed

/-- Whatever is entered, an abort that follows makes the visit one that has not gone well. -/
theorem record_abort (entry : ScriptEntry) (reason : Abort) :
    Sound before after (do Visit.record entry; (Visit.abort reason : Visit α)) := by
  intro good frame standing underWay clear clean
  simp only [Visit.record, obeys_bind, obeys_modify, obeys_abort]
  exact ⟨⟨rfl, underWay⟩, by simp⟩

theorem log (level : LogLevel) (messages : List String) :
    Sound before False (Visit.log level messages) :=
  bind (quiet rfl) fun _ => bind context fun _ => modify fun _ clean => clean

theorem moveTo (change : Context → Context) : Sound before before (Visit.moveTo change) := by
  refine bind context fun old => bind (modify fun _ clean => clean) fun _ => ?_
  intro good frame standing underWay clear clean
  exact obeys_ask.mpr
    ⟨⟨underWay, trivial⟩, fun _ => ⟨⟨rfl, underWay⟩, fun _ _ => ⟨clean, clear⟩⟩⟩

theorem checkpoint : Sound before True Visit.checkpoint := by
  intro good frame standing underWay clear clean
  rw [Visit.checkpoint, obeys_bind]
  refine obeys_ask.mpr ⟨⟨underWay, trivial⟩, fun goesOn => ?_⟩
  cases goesOn with
  | false => exact ⟨⟨rfl, underWay⟩, by simp⟩
  | true => exact ⟨⟨rfl, underWay⟩, fun _ _ => ⟨clean, fun _ => rfl⟩⟩

/-! ### Steps that hold steps -/

theorem sequence {steps : List (Visit Flow)} (sound : ∀ step ∈ steps, Sound False False step) :
    Sound False False (Visit.sequence steps) := by
  induction steps with
  | nil => exact pure _
  | cons step rest ih =>
      rw [List.forall_mem_cons] at sound
      refine bind sound.1 fun flow => ?_
      cases flow with
      | next => exact ih sound.2
      | leave => exact pure _

theorem condition (guard : Guard) {body : Visit Flow} (sound : Sound False False body) :
    Sound False False (Visit.condition guard body) := by
  refine bind store fun properties => ?_
  split
  · exact sound
  · exact pure _

theorem breakLoop (guards : List Guard) : Sound False False (Visit.breakLoop guards) :=
  bind store fun _ => pure _

theorem waitBefore (wait : UInt64) (iteration : Nat) :
    Sound False False (Visit.waitBefore wait iteration) := by
  rw [Visit.waitBefore]
  split
  · exact bind (quiet rfl) fun _ => checkpoint.lax
  · exact pure _

theorem isOver (deadline : Option Nat) : Sound False False (Visit.isOver deadline) := by
  cases deadline with
  | none => exact pure _
  | some deadline => exact bind (quiet rfl) fun _ => pure _

theorem bindIndex (iteration : Nat) (index : Option String) :
    Sound False False (Visit.bindIndex iteration index) := by
  cases index with
  | none => exact pure _
  | some index => exact put _

theorem iterate (bounds : LoopBounds) (deadline : Option Nat) {body : Visit Flow}
    (sound : Sound False False body) (remaining iteration : Nat) :
    Sound False False (Visit.iterate bounds deadline body remaining iteration) := by
  induction remaining generalizing iteration with
  | zero => exact pure _
  | succ remaining ih =>
      rw [Visit.iterate]
      refine bind (waitBefore _ _) fun _ => bind (isOver _) fun isOver => ?_
      split
      · exact pure _
      · refine bind (bindIndex _ _) fun _ => bind sound fun flow => ?_
        cases flow with
        | next => exact ih _
        | leave => exact pure _

theorem setDeadline (maxDuration : UInt64) : Sound False False (Visit.setDeadline maxDuration) := by
  rw [Visit.setDeadline]
  split
  · exact bind (quiet rfl) fun _ => pure _
  · exact pure _

theorem loop (bounds : LoopBounds) {body : Visit Flow} (sound : Sound False False body) :
    Sound False False (Visit.loop bounds body) :=
  bind (setDeadline _) fun _ => iterate _ _ sound _ _

theorem eachItem (element : String) {body : Visit Flow} (sound : Sound False False body)
    (items : List Property) : Sound False False (Visit.eachItem element body items) := by
  induction items with
  | nil => exact pure _
  | cons item rest ih =>
      refine bind (put _) fun _ => bind sound fun flow => ?_
      cases flow with
      | next => exact ih
      | leave => exact pure _

/-- A cleanup does not look at what went before it: an abort stays one, and what was entered
stays. -/
theorem attempt {visit : Visit α} {cleanup : Except Abort α → Visit Unit}
    (sound : Sound before False visit) (tidy : ∀ outcome, (cleanup outcome).Tidy) :
    Sound before False (do
      let outcome ← Visit.attempt visit
      cleanup outcome
      Visit.conclude outcome) := by
  intro good frame standing underWay clear clean
  rw [obeys_bind, obeys_attempt]
  refine (sound good frame standing underWay clear clean).imp ?_
  rintro outcome frame middle ⟨remains, went⟩
  refine obeys_bind.mpr ((tidy outcome good frame middle remains.2).imp ?_)
  rintro _ tidied reached ⟨rfl, entries, stays⟩
  refine obeys_conclude.mpr ⟨remains.trans stays, fun value ok => ⟨?_, False.elim⟩⟩
  rw [Frame.Clean, entries]
  exact (went value ok).1

theorem foreach (list element : String) {body : Visit Flow} (sound : Sound False False body) :
    Sound False False (Visit.foreach list element body) :=
  bind store fun _ => bind (ofExcept _) fun items =>
    attempt (eachItem element sound items) fun _ => tidy_modifyStore _

/-! ### Steps that lock names or call capabilities -/

theorem call {request : Request} (checked : request.isChecked) :
    Sound True False (Visit.ask request) :=
  ask (fun _ _ underWay clear => conduct_allows_of_isChecked underWay (clear trivial) checked)
    fun _ answer underWay => Standing.remains_after_of_isChecked underWay checked answer

theorem lock (name : String) (timeout : Nat) {body : Visit Flow} (sound : Sound False False body) :
    Sound True False (Visit.lock name timeout body) := by
  refine bind (call rfl) fun answer => ?_
  cases answer with
  | granted => exact attempt sound fun _ => tidy_release name
  | timedOut => exact fail _
  | cancelled => exact bind checkpoint.lax fun _ => abort _

theorem takeReply (reply : Reply (Except EngineError α)) :
    Sound before before (Visit.takeReply reply) := by
  rcases reply with (error | answer) | _ | _
  · exact fail error
  · exact pure answer
  · exact abort _
  · exact abort _

theorem waitAfter (delay : Option UInt64) : Sound False False (Visit.waitAfter delay) := by
  cases delay with
  | none => exact pure _
  | some delay => exact quiet rfl

/-- A failed response is entered, but not without failing the script. -/
theorem enterResponse (action : Action) (response : ActionResponse) :
    Sound False False (Visit.enterResponse action response) := by
  rw [Visit.enterResponse]
  split
  · exact record_abort _ _
  · rename_i passed
    exact bind (modifyStore _) fun _ => bind (record passed) fun _ => pure _

theorem action (setting : Setting) (action : Action) :
    Sound True False (Visit.action setting action) :=
  bind (ofExcept _) fun _ => bind store fun _ => bind (ofExcept _) fun _ =>
    bind context fun _ => bind (call rfl) fun _ => bind (takeReply _) fun _ =>
      bind (waitAfter _) fun _ => enterResponse action _

theorem takeVerification (message : String) (answer : Option (Except EngineError Unit)) :
    Sound False False (Visit.takeVerification message answer) := by
  rw [Visit.takeVerification.eq_def]
  split
  · exact pure _
  · exact fail _
  · exact fail _
  · exact abort _

theorem assertion (setting : Setting) (assertion : Assertion) :
    Sound True False (Visit.assertion setting assertion) := by
  rw [Visit.assertion]
  split
  · exact fail _
  · split
    · rw [Visit.verify]
      split
      · exact bind store fun _ => bind (ofExcept _) fun _ => bind (call rfl) fun _ =>
          takeVerification _ _
      · exact fail _
    · exact (pure _).weaken

theorem takeFunctionReply (name : String) (lines : List String)
    (reply : Reply (Except EngineError (List Property))) :
    Sound False False (Visit.takeFunctionReply name lines reply) := by
  cases reply with
  | returned answer => exact bind (log _ _) fun _ => ofExcept _
  | abandoned => exact bind (log _ _) fun _ => abort _
  | crashed => exact abort _

theorem function (setting : Setting) (function : Function) :
    Sound True False (Visit.function setting function) := by
  rw [Visit.function]
  split
  · exact bind store fun _ => bind (ofExcept _) fun _ => bind (call rfl) fun _ =>
      bind (takeFunctionReply _ _ _) fun _ => bind (modifyStore _) fun _ => pure _
  · exact fail _

/-! ### Steps that change properties or write lines -/

theorem propertyAction (action : PropertyAction) :
    Sound False False (Visit.propertyAction action) := by
  refine bind store fun properties => bind (modifyStore _) fun _ => ?_
  split
  · exact pure _
  · exact fail _

theorem logger (level : LogLevel) (children : List Step) :
    Sound False False (Visit.logger level children) :=
  bind store fun _ => bind (log _ _) fun _ => pure _

theorem textMessage (message : TextMessage) : Sound False False (Visit.textMessage message) :=
  bind store fun _ => bind (log _ _) fun _ => pure _

/-! ### Scripts -/

/-- A program that says what may be relied on of its value can stand in a visit. -/
theorem lift {program : Program α} {next : α → Visit β} {condition : α → Prop}
    (obeys : ∀ good standing, standing.ended = none →
      program.Obeys (conduct good) standing fun value reached =>
        standing.Remains reached ∧ condition value)
    (rest : ∀ value, condition value → Sound False after (next value)) :
    Sound before after (ExceptT.lift (StateT.lift program) >>= next) := by
  intro good frame standing underWay clear clean
  refine obeys_bind.mpr (obeys_lift.mpr ((obeys good standing underWay).imp ?_))
  rintro value middle ⟨remains, holds⟩
  refine (rest value holds good frame middle remains.2 False.elim clean).imp ?_
  rintro outcome frame reached ⟨stays, went⟩
  exact ⟨remains.trans stays, went⟩

theorem embed (script : Script) {run : Context → Program ScriptRun}
    (sound : script.RunsSoundly run) :
    Sound True False (Visit.embed script.name run) := by
  refine bind context fun context => lift (sound context) fun ran ranSound => ?_
  refine bind (modify fun _ clean => clean) fun _ => ?_
  split
  · exact abort _
  · exact record_abort _ _
  · rename_i completed
    split
    · exact record_abort _ _
    · rename_i notFailed
      exact bind (record ((ranSound.outcome completed).resolve_left notFailed)) fun _ => pure _

end Sound

theorem completeScript_obeys {result : ScriptResult} {verdict : Verdict} {message : Option String}
    {ending : Ending} {context : Context} {script : Script} {good : List ElementResult → Prop}
    {standing : Standing} (underWay : standing.ended = none)
    (scriptId : result.scriptId = script.id) (name : result.name = script.name)
    (outcome : ending = .completed →
      verdict.isFailure ∨ verdict = .passed ∧ ∀ entry ∈ result.entries, entry.Passed) :
    (completeScript result verdict message ending context).Obeys (conduct good) standing
      fun ran reached => standing.Remains reached ∧ ran.Sound script := by
  refine ⟨conduct_allows_of_isQuiet underWay rfl, fun stop => ⟨⟨rfl, underWay⟩, ?_⟩⟩
  refine ⟨scriptId, name, fun completed => ?_⟩
  rcases outcome completed with failure | ⟨rfl, passed⟩
  · exact .inl failure
  · exact .inr (ScriptResult.passed_iff.mpr ⟨rfl, passed⟩)

theorem concludeScript_obeys {result : ScriptResult} {outcome : Except Abort Flow}
    {context : Context} {script : Script} {good : List ElementResult → Prop} {standing : Standing}
    (underWay : standing.ended = none) (scriptId : result.scriptId = script.id)
    (name : result.name = script.name)
    (clean : ∀ flow, outcome = .ok flow → ∀ entry ∈ result.entries, entry.Passed) :
    (concludeScript result outcome context).Obeys (conduct good) standing fun ran reached =>
      standing.Remains reached ∧ ran.Sound script := by
  -- Of a run that was cut short nothing is promised but whose result it leaves.
  rcases outcome with (_ | _ | error) | flow
  · exact completeScript_obeys underWay scriptId name (fun completed => nomatch completed)
  · exact ⟨⟨rfl, underWay⟩, scriptId, name, fun completed => nomatch completed⟩
  · exact completeScript_obeys underWay scriptId name fun _ => .inl rfl
  · exact completeScript_obeys underWay scriptId name fun _ => .inr ⟨rfl, clean flow rfl⟩

theorem runScript_runsSoundly (script : Script) {steps : Visit Flow}
    (sound : Sound False False steps) :
    script.RunsSoundly (runScript script.id script.name steps) := by
  intro context good standing underWay
  refine Program.obeys_bind.mpr
    ⟨conduct_allows_of_isQuiet underWay rfl, fun start => Program.obeys_bind.mpr ?_⟩
  have visited : Sound False False (do
      moveTo fun context => context.enterScript script.name
      steps) := .bind (.moveTo _) fun _ => sound
  refine Program.Obeys.imp (visited good ⟨context, [], []⟩ _ underWay False.elim
    (by simp [Frame.Clean])) ?_
  rintro ⟨outcome, frame⟩ middle ⟨remains, went⟩
  have clean (flow : Flow) (ok : outcome = .ok flow) : frame.Clean := (went flow ok).1
  refine (concludeScript_obeys remains.2 rfl rfl clean).imp ?_
  rintro ran reached ⟨stays, ranSound⟩
  exact ⟨remains.trans stays, ranSound⟩

/-- No step loses a failure, and none calls a capability or for a lock unless it has passed its
checkpoint. -/
theorem soundness (setting : Setting) :
    VisitLaw setting (fun _ => True) (Sound False False) (Sound True False)
      Script.RunsSoundly where
  step _ _ entered := .bind .checkpoint fun _ => .bind (.moveTo _) fun _ => entered
  sequence := .sequence
  script script _ := runScript_runsSoundly script
  execution := .weaken
  condition guard _ sound := (Sound.condition guard sound).weaken
  loop _ _ sound := (Sound.loop _ sound).weaken
  foreach list element _ sound := (Sound.foreach list element sound).weaken
  lock name timeout _ sound := .lock name timeout sound
  embed script _ := .embed script
  breakLoop guards := (Sound.breakLoop guards).weaken
  action := .action setting
  assertion := .assertion setting
  function := .function setting
  propertyAction action := (Sound.propertyAction action).weaken
  logger level children := (Sound.logger level children).weaken
  textMessage message := (Sound.textMessage message).weaken

end Visit

/-- Every script runs soundly, whatever the answers to its requests are. -/
theorem Script.run_runsSoundly (setting : Setting) (script : Script) :
    script.RunsSoundly (script.run setting) :=
  (Visit.soundness setting).run script (script.everyLoop_of_forall fun _ => trivial)

end TestEngine
