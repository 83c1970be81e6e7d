import TestEngine.Machine.Basic
import TestEngine.Proofs.Observation.Session

/-!
# Tasks that are observed

Backends are *blind* if they look neither at whether traces are kept nor at who acts. A task whose
program records itself and the mute one then go on side by side, from poll to poll: they are awake
at the same moments, get the same answers, and ask the same but for what is recorded. What they ask
and are answered is in the transcript of a poll, which is read off the same recursion as the poll.
-/

namespace TestEngine

variable {ω α β : Type}

/-! ### Blind capabilities -/

/-- A backend that looks neither at whether traces are kept nor at who acts. -/
def Backend.IsBlind (backend : Backend ω) : Prop :=
  ∀ (call : ActionCall) (observation : Observation),
    backend { call with context := call.context.observed observation } = backend call

/-- Capabilities that look neither at whether traces are kept nor at who acts. Only backends are
told. -/
def Registry.IsBlind (registry : Registry ω) : Prop :=
  ∀ name backend, registry.backends.get? name = some backend → backend.IsBlind

theorem Registry.IsBlind.withBackend {registry : Registry ω} (blind : registry.IsBlind)
    (name : String) {backend : Backend ω} (backendBlind : backend.IsBlind) :
    (registry.withBackend name backend).IsBlind := by
  intro other found isFound
  rw [Registry.withBackend, NameMap.get?_insert] at isFound
  split at isFound
  · obtain rfl : backend = found := Option.some.inj isFound
    exact backendBlind
  · exact blind other found isFound

/-- The capabilities that are always there are blind. -/
theorem Registry.builtin_isBlind : (builtin : Registry ω).IsBlind := by
  have emptyBlind : (empty : Registry ω).IsBlind := fun name backend isFound => by
    rw [empty, NameMap.get?_empty] at isFound
    cases isFound
  exact emptyBlind.withBackend "log" fun _ _ => rfl

/-- What the backend does that a call is for. -/
def Registry.activity (registry : Registry ω) (call : ActionCall) :
    Activity ω (Except EngineError ActionResponse) :=
  match registry.backends.get? call.backend with
  | some backend => backend call
  | none => .crash

/-- Blind backends take the call of a mute run for that of any other. -/
theorem Registry.IsBlind.activity_mute {registry : Registry ω} (blind : registry.IsBlind)
    (call : ActionCall) : registry.activity call.mute = registry.activity call := by
  have sameBackend : call.mute.backend = call.backend := rfl
  rw [activity, activity, sameBackend]
  cases found : registry.backends.get? call.backend with
  | none => rfl
  | some backend => exact blind _ backend found call _

/-! ### Transcripts -/

/-- What passes between a task and its surroundings. -/
inductive Event where
  | asked (request : Request)
  | answered (request : Request) (answer : request.Answer)

def Request.mute : Request → Request
  | .perform call => .perform call.mute
  | .publish results => .publish (results.map ElementResult.mute)
  | request => request

def Event.mute : Event → Event
  | .asked request => .asked request.mute
  | .answered (.perform call) reply => .answered (.perform call.mute) reply
  | .answered (.publish results) done => .answered (.publish (results.map ElementResult.mute)) done
  | event => event

/-- What backends return in an event is what a recording says that they have returned. -/
def Recording.Covers (recording : Recording) : Event → Prop
  | .answered (.perform call) reply =>
    ∀ response, reply = .returned (.ok response) → recording.returned call response
  | _ => True

def Program.transcript (registry : Registry ω) : Program α → Session → World ω → List Event
  | .done _, _, _ => []
  | .ask request next, session, world =>
    let carried := request.carryOut registry session world
    .asked request ::
      match carried.outcome with
      | .answered answer =>
        .answered request answer :: (next answer).transcript registry carried.session carried.world
      | .waiting _ => []

/-- What a task comes to once a request has been carried out as far as it goes without waiting. -/
def Carried.goOn (registry : Registry ω) {request : Request} (carried : Carried ω request)
    (next : request.Answer → Program α) : Situation ω α :=
  match carried.outcome with
  | .answered answer => (next answer).advance registry carried.session carried.world
  | .waiting wait => ⟨carried.session, carried.world, .waiting wait next⟩

def Carried.transcript (registry : Registry ω) {request : Request} (carried : Carried ω request)
    (next : request.Answer → Program α) : List Event :=
  match carried.outcome with
  | .answered answer =>
    .answered request answer :: (next answer).transcript registry carried.session carried.world
  | .waiting _ => []

theorem Program.transcript_ask (registry : Registry ω) (request : Request)
    (next : request.Answer → Program α) (session : Session) (world : World ω) :
    (Program.ask request next).transcript registry session world =
      .asked request :: (request.carryOut registry session world).transcript registry next := by
  rw [transcript]
  rfl

theorem Program.advance_ask (registry : Registry ω) (request : Request)
    (next : request.Answer → Program α) (session : Session) (world : World ω) :
    (Program.ask request next).advance registry session world =
      (request.carryOut registry session world).goOn registry next := by
  rw [advance]
  rfl

def Stage.transcript (registry : Registry ω) (session : Session) (world : World ω) :
    Stage ω α → List Event
  | .ready program => program.transcript registry session world
  | .waiting wait next =>
    if wait.isAwake session world then (wait.resume session world).transcript registry next else []
  | .done _ => []

/-! ### Tasks -/

/-- A task and the one that does the same without recording itself. -/
inductive Stage.Mutes (recording : Recording) (same : α → β → Prop) : Stage ω α → Stage ω β → Prop
  | ready {program : Program α} {other : Program β}
      (mutes : program.Mutes recording same other) : Mutes recording same (.ready program)
        (.ready other)
  | waiting {request : Request} {wait : Wait ω request} {next : request.Answer → Program α}
      {otherNext : request.Answer → Program β}
      (goesOn : ∀ answer, (next answer).Mutes recording same (otherNext answer)) :
      Mutes recording same (.waiting wait next) (.waiting wait otherNext)
  | performing {call : ActionCall} {activity : Activity ω (Except EngineError ActionResponse)}
      {alarm : Option Alarm} {next : (Request.perform call).Answer → Program α}
      {otherNext : (Request.perform call.mute).Answer → Program β}
      (goesOn : ∀ reply, recording.Covers (.answered (.perform call) reply) →
        (next reply).Mutes recording same (otherNext reply)) :
      Mutes recording same (.waiting (@Wait.performing ω call activity alarm) next)
        (.waiting (@Wait.performing ω call.mute activity alarm) otherNext)
  | done {value : α} {other : β} (sameValue : same value other) :
      Mutes recording same (.done value) (.done other)

section Mutes

variable (recording : Recording) (same : α → β → Prop) (cache : TraceCache)

/-- What a task and the mute one come to, with what they work on. -/
structure Situation.Mutes (situation : Situation ω α) (other : Situation ω β) : Prop where
  recorded : situation.session.Recorded recording
  session : other.session = situation.session.mute
  world : other.world = situation.world.withCache cache
  stage : situation.stage.Mutes recording same other.stage

/-- A program that goes on in the same way as any mute one that does the same. -/
def Program.KeepsPace (registry : Registry ω) (program : Program α) : Prop :=
  ∀ (other : Program β) (session : Session) (world : World ω),
    program.Mutes recording same other → session.Recorded recording →
    (∀ event ∈ program.transcript registry session world, recording.Covers event) →
      Situation.Mutes recording same cache (program.advance registry session world)
          (other.advance registry session.mute (world.withCache cache)) ∧
        (other.transcript registry session.mute (world.withCache cache)).map Event.mute =
          (program.transcript registry session world).map Event.mute

/-- What has become of a request and of the one that was made by the mute task: both have an answer,
or both wait. -/
inductive Carried.Mutes : {request other : Request} → Carried ω request →
    (request.Answer → Program α) → Carried ω other → (other.Answer → Program β) → Prop
  | answered {request other : Request} {session : Session} {world : World ω}
      {answer : request.Answer} {otherAnswer : other.Answer} {next : request.Answer → Program α}
      {otherNext : other.Answer → Program β} (recorded : session.Recorded recording)
      (sameEvent : (Event.answered other otherAnswer).mute = (Event.answered request answer).mute)
      (goesOn : recording.Covers (.answered request answer) →
        (next answer).Mutes recording same (otherNext otherAnswer)) :
      Mutes ⟨session, world, .answered answer⟩ next
        ⟨session.mute, world.withCache cache, .answered otherAnswer⟩ otherNext
  | waiting {request other : Request} {session : Session} {world : World ω}
      {wait : Wait ω request} {otherWait : Wait ω other} {next : request.Answer → Program α}
      {otherNext : other.Answer → Program β} (recorded : session.Recorded recording)
      (stage : (Stage.waiting wait next).Mutes recording same (.waiting otherWait otherNext)) :
      Mutes ⟨session, world, .waiting wait⟩ next
        ⟨session.mute, world.withCache cache, .waiting otherWait⟩ otherNext

end Mutes

variable {recording : Recording} {same : α → β → Prop} {cache : TraceCache}

theorem Carried.mutes_mute {request : Request} {carried : Carried ω request}
    {next : request.Answer → Program α} {otherNext : request.Answer → Program β}
    (recorded : carried.session.Recorded recording)
    (goesOn : ∀ answer, (next answer).Mutes recording same (otherNext answer)) :
    carried.Mutes recording same cache next (carried.mute cache) otherNext := by
  rcases carried with ⟨session, world, answer | wait⟩
  · exact .answered recorded rfl fun _ => goesOn answer
  · exact .waiting recorded (.waiting goesOn)

/-- A backend that was called or resumed answers both tasks alike, or both go on waiting for it. -/
theorem ActivityRun.carried_performing {call : ActionCall}
    {run : ActivityRun ω (Except EngineError ActionResponse)} (abandoned : Bool)
    {next : (Request.perform call).Answer → Program α}
    {otherNext : (Request.perform call.mute).Answer → Program β}
    (recorded : run.session.Recorded recording)
    (goesOn : ∀ reply, recording.Covers (.answered (.perform call) reply) →
      (next reply).Mutes recording same (otherNext reply)) :
    (run.carried abandoned id .performing).Mutes recording same cache next
      ((run.mute cache).carried abandoned id .performing) otherNext := by
  rcases run with ⟨session, world, lines, value | _ | ⟨activity, alarm⟩⟩
  · exact .answered recorded rfl (goesOn _)
  · exact .answered recorded rfl (goesOn _)
  · cases abandoned with
    | true => exact .answered recorded rfl (goesOn _)
    | false => exact .waiting recorded (.performing goesOn)

/-! ### Polls -/

section Polls

variable {registry : Registry ω}

theorem Request.carryOut_performing (blind : registry.IsBlind) {call : ActionCall}
    {session : Session} (recorded : session.Recorded recording) (world : World ω)
    {next : (Request.perform call).Answer → Program α}
    {otherNext : (Request.perform call.mute).Answer → Program β}
    (goesOn : ∀ reply, recording.Covers (.answered (.perform call) reply) →
      (next reply).Mutes recording same (otherNext reply)) :
    ((Request.perform call).carryOut registry session world).Mutes recording same cache next
      ((Request.perform call.mute).carryOut registry session.mute (world.withCache cache))
      otherNext := by
  let run (call : ActionCall) (session : Session) (world : World ω) :=
    (registry.activity call).advance session world []
  have muteRun (world : World ω) : run call.mute session.mute (world.withCache cache) =
      (run call session world).mute cache := by
    simp only [run, blind.activity_mute, Activity.advance_mute]
  let heeded := (world.heed session.abandons).1
  simp only [carryOut, World.heed_withCache, Prod.map, id_eq]
  change Carried.Mutes _ _ _ (if (world.heed session.abandons).2 then _ else _) _
    (if (world.heed session.abandons).2 then _ else _) _
  split
  · exact .answered recorded rfl (goesOn _)
  · change ((run call session heeded).carried _ id .performing).Mutes _ _ _ _
      ((run call.mute session.mute (heeded.withCache cache)).carried
        (run call.mute session.mute (heeded.withCache cache)).session.abandons id .performing) _
    rw [muteRun]
    exact ActivityRun.carried_performing _ (recorded.onward (.advance _ session heeded [])) goesOn

/-- Both tasks go on in the same way, whatever has become of their requests. -/
theorem Carried.Mutes.goOn {request other : Request} {carried : Carried ω request}
    {otherCarried : Carried ω other} {next : request.Answer → Program α}
    {otherNext : other.Answer → Program β}
    (mutes : carried.Mutes recording same cache next otherCarried otherNext)
    (keepPace : ∀ answer, (next answer).KeepsPace recording same cache registry)
    (covers : ∀ event ∈ carried.transcript registry next, recording.Covers event) :
    Situation.Mutes recording same cache (carried.goOn registry next)
        (otherCarried.goOn registry otherNext) ∧
      (otherCarried.transcript registry otherNext).map Event.mute =
        (carried.transcript registry next).map Event.mute := by
  cases mutes with
  | answered recorded sameEvent goesOn =>
      rw [transcript, List.forall_mem_cons] at covers
      rcases keepPace _ _ _ _ (goesOn covers.1) recorded covers.2 with ⟨after, sameEvents⟩
      exact ⟨after, congrArg₂ List.cons sameEvent sameEvents⟩
  | waiting recorded stage => exact ⟨⟨recorded, rfl, rfl, stage⟩, rfl⟩

/-- A program that records itself and the mute one are carried out alike. -/
theorem Program.keepsPace (blind : registry.IsBlind) (program : Program α) :
    program.KeepsPace recording same cache registry := by
  induction program with
  | done value =>
      intro other session world mutes recorded _
      cases mutes with
      | done sameValue => exact ⟨⟨recorded, rfl, rfl, .done sameValue⟩, rfl⟩
  | ask request next ih =>
      intro other session world mutes recorded covers
      rw [transcript_ask, List.forall_mem_cons] at covers
      -- What both have asked is alike, so they go on from what has become of it, one level deeper.
      have step {otherRequest : Request} {otherNext : otherRequest.Answer → Program β}
          (sameRequest : otherRequest.mute = request.mute)
          (carried : Carried.Mutes recording same cache
            (request.carryOut registry session world) next
            (otherRequest.carryOut registry session.mute (world.withCache cache)) otherNext) :
          Situation.Mutes recording same cache
              ((Program.ask request next).advance registry session world)
              ((Program.ask otherRequest otherNext).advance registry session.mute
                (world.withCache cache)) ∧
            ((Program.ask otherRequest otherNext).transcript registry session.mute
                (world.withCache cache)).map Event.mute =
              ((Program.ask request next).transcript registry session world).map Event.mute := by
        rcases carried.goOn ih covers.2 with ⟨after, sameEvents⟩
        rw [advance_ask, advance_ask, transcript_ask, transcript_ask]
        exact ⟨after, congrArg₂ List.cons (congrArg Event.asked sameRequest) sameEvents⟩
      cases mutes with
      | ask silent goesOn =>
          refine step rfl ?_
          rw [request.carryOut_mute silent]
          exact Carried.mutes_mute (recorded.carryOut silent registry world) goesOn
      | perform goesOn => exact step rfl (Request.carryOut_performing blind recorded world goesOn)
      | publish resultsRecorded goesOn =>
          refine step ?_ (.answered (recorded.publish resultsRecorded) ?_ fun _ => goesOn)
          · simp [Request.mute, ElementResult.mute_mute]
          · simp [Event.mute, ElementResult.mute_mute]

/-- A task that records itself and the mute one are polled alike. -/
theorem Stage.poll_mutes (blind : registry.IsBlind) {stage : Stage ω α} {other : Stage ω β}
    (mutes : stage.Mutes recording same other) {session : Session}
    (recorded : session.Recorded recording) (world : World ω)
    (covers : ∀ event ∈ stage.transcript registry session world, recording.Covers event) :
    Situation.Mutes recording same cache (stage.poll registry session world)
        (other.poll registry session.mute (world.withCache cache)) ∧
      (other.transcript registry session.mute (world.withCache cache)).map Event.mute =
        (stage.transcript registry session world).map Event.mute := by
  -- Of two waits it matters only that they end together and that resuming them comes to the same.
  have step {request otherRequest : Request} {wait : Wait ω request}
      {otherWait : Wait ω otherRequest} {next : request.Answer → Program α}
      {otherNext : otherRequest.Answer → Program β}
      (mutes : (Stage.waiting wait next).Mutes recording same (.waiting otherWait otherNext))
      (sameAwake : otherWait.isAwake session.mute (world.withCache cache) =
        wait.isAwake session world)
      (resumed : (wait.resume session world).Mutes recording same cache next
        (otherWait.resume session.mute (world.withCache cache)) otherNext)
      (covers : ∀ event ∈ (Stage.waiting wait next).transcript registry session world,
        recording.Covers event) :
      Situation.Mutes recording same cache
          ((Stage.waiting wait next).poll registry session world)
          ((Stage.waiting otherWait otherNext).poll registry session.mute
            (world.withCache cache)) ∧
        ((Stage.waiting otherWait otherNext).transcript registry session.mute
            (world.withCache cache)).map Event.mute =
          ((Stage.waiting wait next).transcript registry session world).map Event.mute := by
    simp only [Stage.transcript] at covers
    simp only [Stage.poll, Stage.transcript, sameAwake]
    split
    · rename_i awake
      rw [if_pos awake] at covers
      exact resumed.goOn (fun answer => (next answer).keepsPace blind) covers
    · exact ⟨⟨recorded, rfl, rfl, mutes⟩, rfl⟩
  cases mutes with
  | ready mutes => exact Program.keepsPace blind _ _ _ _ mutes recorded covers
  | done sameValue => exact ⟨⟨recorded, rfl, rfl, .done sameValue⟩, rfl⟩
  | @waiting request wait next otherNext goesOn =>
      refine step (.waiting goesOn) (wait.isAwake_mute session world cache) ?_ covers
      rw [wait.resume_mute]
      exact Carried.mutes_mute (recorded.onward (wait.resume_onward session world)) goesOn
  | @performing call activity alarm next otherNext goesOn =>
      refine step (.performing goesOn) rfl ?_ covers
      let heeded := world.heed session.abandons
      have onward := Session.Onward.advance activity session heeded.1 []
      simp only [Wait.resume, World.heed_withCache, Prod.map, id_eq, Activity.advance_mute]
      change Carried.Mutes _ _ _
        (if heeded.2 || session.abandons && !alarm.any world.isDue then _ else _) _
        (if heeded.2 || session.abandons && !alarm.any world.isDue then _ else _) _
      split
      · exact .answered recorded rfl (goesOn _)
      · exact ActivityRun.carried_performing _ (recorded.onward onward) goesOn

end Polls

end TestEngine
