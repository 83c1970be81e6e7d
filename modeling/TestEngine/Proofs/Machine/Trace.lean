import TestEngine.Machine.Basic
import TestEngine.Proofs.Conduct

/-!
# Traces

The trace of a task is what it asks, in order, each time that it is polled. It is read off the same
recursion as the poll itself. `PollLaw` is the induction over one poll, with a case for each thing
that can happen to a task.

A task whose program obeys a protocol does so from poll to poll. What the state of the protocol has
to do with the session is linked to the requests that were made so far: `ProtocolLaw` says that
every request and every end of a wait keeps the link, and `ProtocolLaw.poll` that a poll does.
-/

namespace TestEngine

variable {ω α : Type}

/-- A request that a task has made. -/
structure Asked where
  /-- The place of the task. -/
  call : Nat
  request : Request
  /-- Whether the run had been interrupted by then. -/
  interrupted : Bool

def Program.asks (registry : Registry ω) (call : Nat) :
    Program α → Session → World ω → List Asked
  | .done _, _, _ => []
  | .ask request next, session, world =>
    let carried := request.carryOut registry session world
    ⟨call, request, session.control.interrupted⟩ ::
      match carried.outcome with
      | .answered answer => (next answer).asks registry call carried.session carried.world
      | .waiting _ => []

def Stage.asks (registry : Registry ω) (call : Nat) (session : Session) (world : World ω) :
    Stage ω α → List Asked
  | .ready program => program.asks registry call session world
  | .waiting wait next =>
    if wait.isAwake session world then
      let carried := wait.resume session world
      match carried.outcome with
      | .answered answer => (next answer).asks registry call carried.session carried.world
      | .waiting _ => []
    else []
  | .done _ => []

/-- What the task at a place asks when it is polled. -/
def Machine.asks (machine : Machine ω α) (place : Nat) : List Asked :=
  match machine.tasks[place]? with
  | some task =>
    task.stage.asks machine.registry place (machine.session task.session) machine.world
  | none => []

/-! ### The induction over a poll -/

/-- What a property of resting tasks and one of running programs say of a request that was carried
out as far as it goes without waiting. -/
def Carried.Keeps (resting : Session → Stage ω α → Prop) (running : Session → Program α → Prop)
    {request : Request} (carried : Carried ω request) (next : request.Answer → Program α) : Prop :=
  match carried.outcome with
  | .answered answer => running carried.session (next answer)
  | .waiting wait => resting carried.session (.waiting wait next)

/-- The cases of a proof that polling a task keeps an invariant of the task and its session, and
that everything it asks meanwhile has a property. While the task is polled, the invariant may say
more of the program that it runs. -/
structure PollLaw (registry : Registry ω) (resting : Session → Stage ω α → Prop)
    (running : Session → Program α → Prop) (asked : Request → (interrupted : Bool) → Prop) :
    Prop where
  start {session : Session} {program : Program α} (kept : resting session (.ready program)) :
    running session program
  finish {session : Session} {value : α} (kept : running session (.done value)) :
    resting session (.done value)
  ask {session : Session} (world : World ω) {request : Request}
    {next : request.Answer → Program α} (kept : running session (.ask request next)) :
    asked request session.control.interrupted ∧
      (request.carryOut registry session world).Keeps resting running next
  resume {session : Session} (world : World ω) {request : Request} {wait : Wait ω request}
    {next : request.Answer → Program α} (kept : resting session (.waiting wait next)) :
    (wait.resume session world).Keeps resting running next

namespace PollLaw

variable {registry : Registry ω} {resting : Session → Stage ω α → Prop}
  {running : Session → Program α → Prop} {asked : Request → (interrupted : Bool) → Prop}

theorem advance (law : PollLaw registry resting running asked) (call : Nat) (program : Program α)
    {session : Session} (world : World ω) (kept : running session program) :
    let after := program.advance registry session world
    resting after.session after.stage ∧
      ∀ made ∈ program.asks registry call session world, asked made.request made.interrupted := by
  induction program generalizing session world with
  | done value => exact ⟨law.finish kept, by simp [Program.asks]⟩
  | ask request next ih =>
      rcases law.ask world kept with ⟨made, keptOn⟩
      simp only [Program.advance, Program.asks]
      rw [Carried.Keeps] at keptOn
      cases outcome : (request.carryOut registry session world).outcome with
      | answered answer =>
          rw [outcome] at keptOn
          rcases ih answer _ keptOn with ⟨keptAfter, madeAfter⟩
          exact ⟨keptAfter, List.forall_mem_cons.mpr ⟨made, madeAfter⟩⟩
      | waiting wait =>
          rw [outcome] at keptOn
          exact ⟨keptOn, by simpa using made⟩

/-- Polling a task keeps the invariant, whatever comes to pass meanwhile. -/
theorem poll (law : PollLaw registry resting running asked) (call : Nat) (stage : Stage ω α)
    {session : Session} (world : World ω) (kept : resting session stage) :
    let after := stage.poll registry session world
    resting after.session after.stage ∧
      ∀ made ∈ stage.asks registry call session world, asked made.request made.interrupted := by
  cases stage with
  | done value => exact ⟨kept, by simp [Stage.asks]⟩
  | ready program => exact law.advance call program world (law.start kept)
  | waiting wait next =>
      simp only [Stage.poll, Stage.asks]
      split
      · have keptOn := law.resume world kept
        rw [Carried.Keeps] at keptOn
        cases outcome : (wait.resume session world).outcome with
        | answered answer =>
            rw [outcome] at keptOn
            exact law.advance call _ _ keptOn
        | waiting wait =>
            rw [outcome] at keptOn
            exact ⟨keptOn, by simp⟩
      · exact ⟨kept, by simp⟩

/-- What every request and the end of every wait keep of a session, a poll keeps. -/
theorem ofSession {keeps : Session → Prop}
    (asks : ∀ session (request : Request), keeps session →
      asked request session.control.interrupted)
    (carryOut : ∀ session world (request : Request), keeps session →
      keeps (request.carryOut registry session world).session)
    (resume : ∀ session world (request : Request) (wait : Wait ω request), keeps session →
      keeps (wait.resume session world).session) :
    PollLaw registry (fun session (_ : Stage ω α) => keeps session) (fun session _ => keeps session)
      asked where
  start kept := kept
  finish kept := kept
  ask := by
    intro session world request next kept
    have keptOn := carryOut session world request kept
    rw [Carried.Keeps]
    exact ⟨asks session request kept, by split <;> exact keptOn⟩
  resume := by
    intro session world request wait next kept
    have keptOn := resume session world request wait kept
    rw [Carried.Keeps]
    split <;> exact keptOn

end PollLaw

/-- Every request that is made was made by the task that was polled. -/
theorem Program.call_of_mem_asks {registry : Registry ω} {call : Nat} {program : Program α}
    {session : Session} {world : World ω} {made : Asked}
    (madeMem : made ∈ program.asks registry call session world) : made.call = call := by
  induction program generalizing session world with
  | done value => simp [asks] at madeMem
  | ask request next ih =>
      rw [asks] at madeMem
      rcases List.mem_cons.mp madeMem with rfl | madeMem
      · rfl
      · split at madeMem
        · exact ih _ madeMem
        · simp at madeMem

theorem Stage.call_of_mem_asks {registry : Registry ω} {call : Nat} {stage : Stage ω α}
    {session : Session} {world : World ω} {made : Asked}
    (madeMem : made ∈ stage.asks registry call session world) : made.call = call := by
  cases stage with
  | done value => simp [asks] at madeMem
  | ready program => exact Program.call_of_mem_asks madeMem
  | waiting wait next =>
      simp only [asks] at madeMem
      split at madeMem
      · split at madeMem
        · exact Program.call_of_mem_asks madeMem
        · simp at madeMem
      · simp at madeMem

/-! ## Protocols -/

variable {σ : Type} {protocol : Protocol σ} {condition : α → σ → Prop}

/-- A task that obeys a protocol from where it stands. -/
def Stage.ObeysFrom (protocol : Protocol σ) (condition : α → σ → Prop) (state : σ) :
    Stage ω α → Prop
  | .ready program => program.Obeys protocol state condition
  | @Stage.waiting _ _ request _ next =>
      ∀ answer, (next answer).Obeys protocol (protocol.after state request answer) condition
  | .done value => condition value state

/-- What a protocol knows of a session once a request was carried out as far as it goes without
waiting: its state follows the answer. -/
def Carried.Links (protocol : Protocol σ) (state : σ) (links : Session → σ → Prop)
    {request : Request} (carried : Carried ω request) : Prop :=
  match carried.outcome with
  | .answered answer => links carried.session (protocol.after state request answer)
  | .waiting _ => links carried.session state

/-- The cases of a proof that a task which obeys a protocol keeps the link between its requests, its
session and the protocol's state. -/
structure ProtocolLaw (registry : Registry ω) (protocol : Protocol σ)
    (links : List Request → Session → σ → Prop) : Prop where
  ask {asked : List Request} {session : Session} {state : σ} (linked : links asked session state)
    {request : Request} (allowed : protocol.allows state request) (world : World ω) :
    (request.carryOut registry session world).Links protocol state (links (asked ++ [request]))
  resume {asked : List Request} {session : Session} {state : σ} (linked : links asked session state)
    {request : Request} (wait : Wait ω request) (world : World ω) :
    (wait.resume session world).Links protocol state (links asked)

namespace ProtocolLaw

variable {registry : Registry ω} {links : List Request → Session → σ → Prop}

theorem advance (law : ProtocolLaw registry protocol links) (call : Nat) {program : Program α}
    {asked : List Request} {session : Session} {state : σ}
    (obeys : program.Obeys protocol state condition) (linked : links asked session state)
    (world : World ω) :
    let after := program.advance registry session world
    ∃ state, after.stage.ObeysFrom protocol condition state ∧
      links (asked ++ (program.asks registry call session world).map Asked.request) after.session
        state := by
  induction program generalizing asked session world state with
  | done value => exact ⟨state, obeys, (List.append_nil asked).symm ▸ linked⟩
  | ask request next ih =>
      rcases obeys with ⟨allowed, obeysOn⟩
      have linkedOn := law.ask linked allowed world
      rw [Carried.Links] at linkedOn
      simp only [Program.advance, Program.asks, List.map_cons]
      rw [List.append_cons]
      cases outcome : (request.carryOut registry session world).outcome with
      | answered answer =>
          rw [outcome] at linkedOn
          exact ih answer (obeysOn answer) linkedOn _
      | waiting wait =>
          rw [outcome] at linkedOn
          exact ⟨state, obeysOn, by simpa using linkedOn⟩

/-- Polling a task keeps the link, whatever comes to pass meanwhile. -/
theorem poll (law : ProtocolLaw registry protocol links) (call : Nat) {stage : Stage ω α}
    {asked : List Request} {session : Session} {state : σ}
    (obeys : stage.ObeysFrom protocol condition state) (linked : links asked session state)
    (world : World ω) :
    let after := stage.poll registry session world
    ∃ state, after.stage.ObeysFrom protocol condition state ∧
      links (asked ++ (stage.asks registry call session world).map Asked.request) after.session
        state := by
  have rests : links (asked ++ []) session state := (List.append_nil asked).symm ▸ linked
  cases stage with
  | done value => exact ⟨state, obeys, rests⟩
  | ready program => exact law.advance call obeys linked world
  | waiting wait next =>
      simp only [Stage.poll, Stage.asks]
      split
      · have linkedOn := law.resume linked wait world
        rw [Carried.Links] at linkedOn
        cases outcome : (wait.resume session world).outcome with
        | answered answer =>
            rw [outcome] at linkedOn
            exact law.advance call (obeys answer) linkedOn _
        | waiting again =>
            rw [outcome] at linkedOn
            exact ⟨state, obeys, by simpa using linkedOn⟩
      · exact ⟨state, obeys, rests⟩

end ProtocolLaw

end TestEngine
