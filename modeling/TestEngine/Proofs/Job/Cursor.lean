import TestEngine.Proofs.ContextLaw
import TestEngine.Proofs.Job.State
import TestEngine.Proofs.Lock.Aside
import TestEngine.Proofs.Script.Arrival
import TestEngine.Proofs.Script.Bracketing

/-!
# What the cursor of a job tells

A run moves the cursor whenever it enters a script or a step, and never back when it leaves one. So
at each call of a capability, and at each request for a lock, the cursor is at the step that makes
it; but the script that it names is the one that was entered last. That is the script of the step
unless another one was run before it, be it from an earlier sibling or from deeper inside of one. An
`Asker` says whose call it is.
-/

namespace TestEngine

variable {ω α ν : Type} {setting : Setting}

/-! ### Moves -/

/-- The protocol of runs that move the cursor from where it is, to a script or to a step of the
script that it names, and that call backends with it. -/
def placing : Protocol Cursor where
  allows
    | cursor, .moveTo moved =>
      (∃ name, moved = ⟨some name, none⟩) ∨ ∃ label, moved = ⟨cursor.script, some label⟩
    | cursor, .perform call => call.context.cursor = cursor
    | _, _ => True
  after cursor request _ := request.placeAfter cursor

/-- Where a run moves the cursor is a matter of its requests alone. -/
theorem placing_follow_eq (cursor : Cursor) (history : List (Exchange ν)) :
    (history.map Exchange.request).foldl Request.placeAfter cursor =
      placing.follow cursor history := List.foldl_map

/-- The cursor of a context is where the run has moved it to. -/
theorem placing_law : ContextLaw placing fun context cursor => context.cursor = cursor where
  ask := by
    intro context cursor isCursor request aside
    cases request <;> first | exact ⟨trivial, fun _ => isCursor⟩ | exact nomatch aside
  perform isCursor := ⟨isCursor, fun _ => isCursor⟩
  enterScript _ name := ⟨.inl ⟨name, rfl⟩, rfl⟩
  enterStep := by
    rintro context cursor rfl label
    exact ⟨.inr ⟨label, rfl⟩, rfl⟩
  put isCursor _ := isCursor
  erase isCursor _ := isCursor
  apply isCursor _ := isCursor

/-- The name of the script that a request enters, if it enters one. -/
def Request.entered? : Request → Option String
  | .moveTo ⟨script, none⟩ => script
  | _ => none

/-- The names of the scripts that are entered in a history, in order. -/
def Exchange.entered (history : List (Exchange ν)) : List String :=
  history.filterMap fun exchange => exchange.request.entered?

theorem placing_script {cursor : Cursor} {request : Request}
    (allowed : placing.allows cursor request) :
    (request.placeAfter cursor).script = request.entered?.or cursor.script := by
  cases request with
  | moveTo moved => rcases allowed with ⟨name, rfl⟩ | ⟨label, rfl⟩ <;> rfl
  | _ => rfl

/-- The cursor names the script that was entered last. -/
theorem Program.Leads.script_of_placing {program rest : Program α} {history : List (Exchange ν)}
    {condition : α → Cursor → Prop} {cursor : Cursor} (leads : program.Leads history rest)
    (obeys : program.Obeys placing cursor condition) :
    (placing.follow cursor history).script =
      (Exchange.entered history).getLast?.or cursor.script := by
  induction leads generalizing cursor with
  | here => rfl
  | @ask request next rest answer note history leads ih =>
      have enteredLast : (Exchange.entered (⟨request, answer, note⟩ :: history)).getLast? =
          (Exchange.entered history).getLast?.or request.entered? := by
        rw [Exchange.entered, List.filterMap_cons]
        cases request.entered? with
        | none => exact Option.or_none.symm
        | some name =>
            refine List.getLast?_cons.trans ?_
            rw [← Exchange.entered]
            cases (Exchange.entered history).getLast? <;> rfl
      calc
        _ = (Exchange.entered history).getLast?.or (request.placeAfter cursor).script :=
          ih (obeys.2 answer)
        _ = (Exchange.entered history).getLast?.or (request.entered?.or cursor.script) := by
          rw [placing_script obeys.1]
        _ = (Exchange.entered (⟨request, answer, note⟩ :: history)).getLast?.or cursor.script := by
          rw [enteredLast, Option.or_assoc]

/-! ### Calls of steps -/

namespace Script.Calls

variable {script : Script} {context : Context} {step : Step} {request : Request}
  {since : List (Exchange Unit)}

theorem comesUpon (calls : script.Calls setting context since step request) :
    ∃ next : request.Answer → Program (Except Abort Flow × Frame),
      (script.run setting context).ComesUpon since (.ask request next) := by
  cases calls with
  | @intro start _ _ _ there _ next approach enters asks =>
      have comes := approach.comesUpon.trans enters.comesUpon
      rw [asks] at comes
      exact ⟨next, (script.comesUpon_steps context start () ()).trans comes⟩

/-- A script enters itself before it comes to a step. -/
theorem head?_entered (calls : script.Calls setting context since step request) :
    (Exchange.entered since).head? = some script.name := by
  cases calls
  rfl

/-- Where a run is once a script has come to a step and entered it: at the step, and in the script
that was entered last since. -/
theorem placing_follow (calls : script.Calls setting context since step request)
    (cursor : Cursor) :
    placing.follow cursor since = ⟨(Exchange.entered since).getLast?, some step.label⟩ := by
  rcases calls.comesUpon with ⟨next, behind, leads⟩
  have named := leads.script_of_placing (placing_law.script setting script context _ rfl)
  have isNamed : (Exchange.entered since).getLast?.or context.cursor.script =
      (Exchange.entered since).getLast? := by
    rcases List.head?_eq_some_iff.mp calls.head?_entered with ⟨embedded, isEntered⟩
    rw [isEntered, List.getLast?_cons, Option.some_or]
  rw [isNamed] at named
  rw [← named]
  -- The last thing that was asked is to move to the step.
  cases calls with
  | intro start approach enters asks =>
      cases enters
      simp only [Protocol.follow, List.foldl_cons, List.foldl_append]
      rfl

end Script.Calls

/-! ### Who asks -/

/-- Who asks for something in a run of a program that has asked a few things before: a step, in the
run of the script that contains it directly. -/
structure Asker (setting : Setting) (program : Program α) (asked : List Request)
    (request : Request) where
  script : Script
  context : Context
  step : Step
  /-- What was asked before the run of the script began. -/
  earlier : List (Exchange Unit)
  /-- What the run of the script has asked since. -/
  since : List (Exchange Unit)
  comes : program.ComesUpon earlier (script.run setting context)
  calls : script.Calls setting context since step request
  asked_eq : (earlier ++ since).map Exchange.request = asked

/-- The names of the scripts that were entered since the run of the step's own script began, which
is the first of them. -/
def Asker.entered {program : Program α} {asked : List Request} {request : Request}
    (asker : Asker setting program asked request) : List String :=
  Exchange.entered asker.since

theorem reachesOutIn_walkLaw (setting : Setting) :
    WalkLaw setting fun _ _ program _ => program.ReachesOutIn (Program.IsScript setting) where
  pure _ := .done _
  bind := .bind
  ask indifferent := .ask (Request.not_isOutward_of_isIndifferent indifferent)
  merge _ _ _ reaches := reaches
  script script context := .itself (.run script context)

/-- A job reaches out only inside of the scripts that it runs. -/
theorem Configuration.runJob_reachesOutIn (setting : Setting) (configuration : Configuration)
    (context : Context) :
    (configuration.runJob setting context).ReachesOutIn (Program.IsScript setting) := by
  rw [Configuration.runJob_eq]
  refine .ask Bool.false_ne_true fun answer => ?_
  cases answer with
  | some status => exact .done status
  | none =>
      refine .bind ((reachesOutIn_walkLaw setting).configuration configuration) fun ran => ?_
      exact .ask Bool.false_ne_true fun status => .done status

/-- A job moves the cursor from where it is, and calls backends with it. -/
theorem Configuration.runJob_placing (setting : Setting) (configuration : Configuration)
    (context : Context) :
    (configuration.runJob setting context).Obeys placing context.cursor fun _ _ => True := by
  rw [Configuration.runJob_eq]
  refine ⟨trivial, fun answer => ?_⟩
  cases answer with
  | some status => exact trivial
  | none =>
      refine Program.obeys_bind.mpr
        ((placing_law.configuration setting configuration rfl).imp fun ran cursor _ => ?_)
      exact ⟨trivial, fun _ => trivial⟩

theorem Configuration.perform_cursor {configuration : Configuration} {context : Context}
    {history : List (Exchange Unit)} {call : ActionCall}
    {next : (Request.perform call).Answer → Program JobStatus}
    (leads : (configuration.runJob setting context).Leads history (.ask (.perform call) next)) :
    call.context.cursor =
      (history.map Exchange.request).foldl Request.placeAfter context.cursor := by
  rw [placing_follow_eq]
  exact (leads.obeys (configuration.runJob_placing setting context)).1

/-- Everything that a job asks of locks and capabilities is asked by some step. -/
theorem Configuration.exists_asker {configuration : Configuration} {context : Context}
    {history : List (Exchange Unit)} {request : Request}
    {next : request.Answer → Program JobStatus}
    (leads : (configuration.runJob setting context).Leads history (.ask request next))
    (outward : request.isOutward) :
    Nonempty (Asker setting (configuration.runJob setting context)
      (history.map Exchange.request) request) := by
  rcases (configuration.runJob_reachesOutIn setting context).exists_call leads outward with
    ⟨script, scriptContext, earlier, since, step, comes, calls, rfl⟩
  exact ⟨⟨script, scriptContext, step, earlier, since, comes, calls, rfl⟩⟩

/-! ### Tasks -/

/-- Where a run has moved the cursor that has asked some requests. -/
def Cursor.along (asked : List Request) : Cursor := asked.foldl Request.placeAfter ⟨none, none⟩

/-- An asker makes its request with the cursor at its step, and in the script entered last. -/
theorem Asker.exists_others {program : Program α} {asked : List Request} {request : Request}
    (asker : Asker setting program asked request) :
    ∃ others, asker.entered = asker.script.name :: others ∧ ∀ cursor,
      asked.foldl Request.placeAfter cursor =
        ⟨some (others.getLast?.getD asker.script.name), some asker.step.label⟩ := by
  rcases List.head?_eq_some_iff.mp asker.calls.head?_entered with ⟨others, isEntered⟩
  refine ⟨others, isEntered, fun cursor => ?_⟩
  calc
    asked.foldl Request.placeAfter cursor =
        ((asker.earlier ++ asker.since).map Exchange.request).foldl Request.placeAfter cursor :=
      congrArg (List.foldl Request.placeAfter cursor) asker.asked_eq.symm
    _ = placing.follow cursor (asker.earlier ++ asker.since) := placing_follow_eq _ _
    _ = placing.follow (placing.follow cursor asker.earlier) asker.since := List.foldl_append
    _ = ⟨asker.entered.getLast?, some asker.step.label⟩ := asker.calls.placing_follow _
    _ = _ := by rw [Asker.entered, isEntered, List.getLast?_cons]

theorem Program.asks_of_answered {registry : Registry ω} {call : Nat} {request : Request}
    {next : request.Answer → Program α} {answer : request.Answer} {session after : Session}
    {world left : World ω} {rest : List Asked}
    (carries : request.carryOut registry session world = ⟨after, left, .answered answer⟩)
    (goesOn : (next answer).asks registry call after left = rest) :
    (Program.ask request next).asks registry call session world =
      ⟨call, request, session.control.interrupted⟩ :: rest := by
  simp only [asks, carries, goesOn]

theorem Program.advance_cursor (registry : Registry ω) (call : Nat) (program : Program α)
    (session : Session) (world : World ω) :
    (program.advance registry session world).session.cursor =
      ((program.asks registry call session world).map Asked.request).foldl Request.placeAfter
        session.cursor := by
  induction program generalizing session world with
  | done value => rfl
  | ask request next ih =>
      have moved := request.carryOut_cursor registry session world
      simp only [advance, asks]
      cases outcome : (request.carryOut registry session world).outcome with
      | answered answer =>
          simp only [List.map_cons, List.foldl_cons]
          rw [← moved]
          exact ih answer _ _
      | waiting wait => exact moved

/-- A poll moves the cursor as the task asks. -/
theorem Stage.poll_cursor (registry : Registry ω) (call : Nat) (stage : Stage ω α)
    (session : Session) (world : World ω) :
    (stage.poll registry session world).session.cursor =
      ((stage.asks registry call session world).map Asked.request).foldl Request.placeAfter
        session.cursor := by
  cases stage with
  | done value => rfl
  | ready program => exact program.advance_cursor registry call session world
  | waiting wait next =>
      have unmoved := wait.resume_cursor session world
      simp only [poll, asks]
      split
      · cases outcome : (wait.resume session world).outcome with
        | waiting again => exact unmoved
        | answered answer =>
            rw [← unmoved]
            exact (next answer).advance_cursor registry call _ _
      · rfl

/-- What a task has asked by the time that it has come to a stage of its program. -/
inductive Stage.CameBy (program : Program α) : List Request → Stage ω α → Prop
  | ready : CameBy program [] (.ready program)
  | waiting {history : List (Exchange Unit)} {request : Request} {wait : Wait ω request}
      {next : request.Answer → Program α} (leads : program.Leads history (.ask request next)) :
      CameBy program (history.map Exchange.request ++ [request]) (.waiting wait next)
  | done {history : List (Exchange Unit)} {value : α}
      (leads : program.Leads history (.done value)) :
      CameBy program (history.map Exchange.request) (.done value)

theorem Program.advance_cameBy {program rest : Program α} {history : List (Exchange Unit)}
    (leads : program.Leads history rest) (registry : Registry ω) (call : Nat) (session : Session)
    (world : World ω) :
    (rest.advance registry session world).stage.CameBy program
      (history.map Exchange.request ++
        (rest.asks registry call session world).map Asked.request) := by
  induction rest generalizing history session world with
  | done value => simpa [asks, advance] using Stage.CameBy.done leads
  | ask request next ih =>
      simp only [advance, asks]
      cases outcome : (request.carryOut registry session world).outcome with
      | waiting wait => exact .waiting leads
      | answered answer => simpa using ih answer (leads.snoc answer ()) _ _

theorem Stage.CameBy.poll {program : Program α} {asked : List Request} {stage : Stage ω α}
    (cameBy : stage.CameBy program asked) (registry : Registry ω) (call : Nat) (session : Session)
    (world : World ω) :
    (stage.poll registry session world).stage.CameBy program
      (asked ++ (stage.asks registry call session world).map Asked.request) := by
  cases cameBy with
  | ready => exact Program.advance_cameBy .here registry call session world
  | done leads => simpa [Stage.asks, Stage.poll] using Stage.CameBy.done leads
  | @waiting history request wait next leads =>
      simp only [Stage.poll, Stage.asks]
      split
      · cases outcome : (wait.resume session world).outcome with
        | waiting again => simpa using Stage.CameBy.waiting leads
        | answered answer =>
            simpa using Program.advance_cameBy (leads.snoc answer ()) registry call _ _
      · simpa using Stage.CameBy.waiting leads

/-- Before each of its requests a task has gone through a part of its program. -/
theorem Program.Leads.at_request {program rest : Program α} {history : List (Exchange Unit)}
    (leads : program.Leads history rest) {earlier later : List Request} {request : Request}
    (split : history.map Exchange.request = earlier ++ request :: later) :
    ∃ (before : List (Exchange Unit)) (next : request.Answer → Program α),
      program.Leads before (.ask request next) ∧ before.map Exchange.request = earlier := by
  induction leads generalizing earlier with
  | here => simp at split
  | @ask asked next rest answer note history leads ih =>
      cases earlier with
      | nil =>
          obtain rfl : asked = request := (List.cons.inj split).1
          exact ⟨[], next, .here, rfl⟩
      | cons first earlier =>
          obtain ⟨rfl, goesOn⟩ := List.cons.inj split
          rcases ih goesOn with ⟨before, further, leadsThere, rfl⟩
          exact ⟨⟨_, answer, note⟩ :: before, further, .ask leadsThere, rfl⟩

theorem Stage.CameBy.at_request {program : Program α} {stage : Stage ω α}
    {earlier later : List Request} {request : Request}
    (cameBy : stage.CameBy program (earlier ++ request :: later)) :
    ∃ (before : List (Exchange Unit)) (next : request.Answer → Program α),
      program.Leads before (.ask request next) ∧ before.map Exchange.request = earlier := by
  generalize isAsked : earlier ++ request :: later = asked at cameBy
  cases cameBy with
  | ready => simp at isAsked
  | @waiting history pending wait next leads =>
      -- What is pending is as good as answered.
      have answered := leads.snoc (Request.refused pending) ()
      exact answered.at_request (by simpa using isAsked.symm)
  | done leads => exact leads.at_request isAsked.symm

/-! ### Courses of a job -/

/-- What the call at a place has asked in a trace. -/
def Asked.ofCall (trace : List Asked) (call : Nat) : List Request :=
  (trace.filter fun made => made.call = call).map Asked.request

theorem Asked.ofCall_cons_of_eq {made : Asked} {call : Nat} (isCall : made.call = call)
    (trace : List Asked) : ofCall (made :: trace) call = made.request :: ofCall trace call := by
  rw [ofCall, List.filter_cons, if_pos (decide_eq_true isCall)]
  rfl

theorem Asked.ofCall_cons_of_ne {made : Asked} {call : Nat} (otherNe : made.call ≠ call)
    (trace : List Asked) : ofCall (made :: trace) call = ofCall trace call := by
  rw [ofCall, List.filter_cons, if_neg (by simpa using otherNe)]
  rfl

theorem Asked.ofCall_append (earlier later : List Asked) (call : Nat) :
    ofCall (earlier ++ later) call = ofCall earlier call ++ ofCall later call := by
  rw [ofCall, List.filter_append, List.map_append]
  rfl

theorem Asked.ofCall_asks (registry : Registry ω) (call : Nat) (stage : Stage ω α)
    (session : Session) (world : World ω) :
    ofCall (stage.asks registry call session world) call =
      (stage.asks registry call session world).map Asked.request := by
  rw [ofCall, List.filter_eq_self.mpr]
  intro made madeMem
  exact decide_eq_true (Stage.call_of_mem_asks madeMem)

theorem Asked.ofCall_asks_of_ne (registry : Registry ω) {call other : Nat} (otherNe : other ≠ call)
    (stage : Stage ω α) (session : Session) (world : World ω) :
    ofCall (stage.asks registry call session world) other = [] := by
  rw [ofCall, List.filter_eq_nil_iff.mpr, List.map_nil]
  intro made madeMem
  have isCall : made.call = call := Stage.call_of_mem_asks madeMem
  simpa [isCall] using otherNe.symm

/-- The invariant of a job's courses: the cursor is where the requests so far have moved it, and
each of them was made by a call on its way through the program. -/
structure Placed (program : Program α) (trace : List Asked) (session : Session)
    (stages : Nat → Option (Stage ω α)) : Prop where
  cursor : session.cursor = Cursor.along (trace.map Asked.request)
  cameBy : ∀ call stage, stages call = some stage → stage.CameBy program (Asked.ofCall trace call)
  known : ∀ made ∈ trace, stages made.call ≠ none

theorem Placed.withSession {program : Program α} {trace : List Asked} {session after : Session}
    {stages : Nat → Option (Stage ω α)} (placed : Placed program trace session stages)
    (unmoved : after.cursor = session.cursor) : Placed program trace after stages where
  cursor := unmoved.trans placed.cursor
  cameBy := placed.cameBy
  known := placed.known

theorem Placed.known_update {program : Program α} {trace : List Asked} {session : Session}
    {stages : Nat → Option (Stage ω α)} (placed : Placed program trace session stages) (call : Nat)
    (stage : Stage ω α) :
    ∀ made ∈ trace, Function.update stages call (some stage) made.call ≠ none := by
  intro made madeMem
  rcases eq_or_ne made.call call with isCall | otherNe
  · rw [isCall, Function.update_self]
    exact Option.some_ne_none stage
  · rw [Function.update_of_ne otherNe]
    exact placed.known made madeMem

theorem placed_courseLaw (program : Program α) (mayReject : Session → Prop) :
    Machine.CourseLaw (· = program) mayReject (Placed (ω := ω) program) where
  poll := by
    intro trace session stages placed call stage hasStage registry world
    refine ⟨?_, ?_, ?_⟩
    · rw [stage.poll_cursor registry call session world, placed.cursor, List.map_append,
        Cursor.along, Cursor.along, List.foldl_append]
    · intro other otherStage hasOther
      rw [Asked.ofCall_append]
      rcases eq_or_ne other call with rfl | otherNe
      · rw [Function.update_self] at hasOther
        rw [Asked.ofCall_asks]
        cases hasOther
        exact (placed.cameBy other stage hasStage).poll registry other _ _
      · rw [Function.update_of_ne otherNe] at hasOther
        rw [Asked.ofCall_asks_of_ne registry otherNe, List.append_nil]
        exact placed.cameBy other otherStage hasOther
    · intro made madeMem
      rcases List.mem_append.mp madeMem with earlier | now
      · exact placed.known_update call _ made earlier
      · rw [Stage.call_of_mem_asks now, Function.update_self]
        exact Option.some_ne_none _
  spawn := by
    rintro trace session stages placed _ rfl call isNew
    refine ⟨placed.cursor, ?_, placed.known_update call _⟩
    intro other stage hasStage
    rcases eq_or_ne other call with rfl | otherNe
    · rw [Function.update_self] at hasStage
      have nothing : Asked.ofCall trace other = [] := by
        rw [Asked.ofCall, List.filter_eq_nil_iff.mpr, List.map_nil]
        intro made madeMem
        have otherCall : made.call ≠ other := by
          rintro rfl
          exact placed.known made madeMem isNew
        simpa using otherCall
      rw [nothing]
      exact Option.some.inj hasStage ▸ .ready
    · rw [Function.update_of_ne otherNe] at hasStage
      exact placed.cameBy other stage hasStage
  signal := by
    intro trace session stages placed signal
    exact placed.withSession rfl
  listen := by
    intro trace session stages placed listeners
    exact placed.withSession rfl
  reject := by
    rintro trace session stages placed - now
    refine placed.withSession ?_
    rw [Session.reject]
    split <;> rfl

/-- Calls that only try to begin the job do not move the cursor. -/
theorem Cursor.along_ofCall {trace : List Asked} {call : Nat}
    (bystand : ∀ made ∈ trace, made.call ≠ call → made.request = .beginJob) :
    Cursor.along (trace.map Asked.request) = Cursor.along (Asked.ofCall trace call) := by
  rw [along, along]
  generalize (⟨none, none⟩ : Cursor) = cursor
  induction trace generalizing cursor with
  | nil => rfl
  | cons made trace ih =>
      rcases List.forall_mem_cons.mp bystand with ⟨first, rest⟩
      by_cases isCall : made.call = call
      · rw [Asked.ofCall_cons_of_eq isCall]
        exact ih rest _
      · rw [Asked.ofCall_cons_of_ne isCall, List.map_cons, List.foldl_cons, first isCall]
        exact ih rest cursor

/-- At each request of a course the call that makes it has come to it by what it has asked. -/
theorem Placed.at_request {program : Program α} {before after : List Asked} {made : Asked}
    {session : Session} {stages : Nat → Option (Stage ω α)}
    (placed : Placed program (before ++ made :: after) session stages) :
    ∃ (history : List (Exchange Unit)) (next : made.request.Answer → Program α),
      program.Leads history (.ask made.request next) ∧
        history.map Exchange.request = Asked.ofCall before made.call := by
  rcases Option.ne_none_iff_exists'.mp (placed.known made List.mem_append_cons_self) with
    ⟨stage, hasStage⟩
  have cameBy := placed.cameBy made.call stage hasStage
  rw [Asked.ofCall_append, Asked.ofCall_cons_of_eq rfl] at cameBy
  exact cameBy.at_request

variable {configuration : Configuration} {context : Context}

/-- Of all calls only one executes the job, so the others do nothing but try to begin it. -/
theorem JobState.begins_of_ne {mayOverrule : Prop} {trace : List Asked} {session : Session}
    {stages : Nat → Option (Stage ω JobStatus)} {owner : Option Nat}
    (state : JobState setting configuration context mayOverrule trace session stages owner)
    {call : Nat} (executes : Executes trace call) :
    ∀ made ∈ trace, made.call ≠ call → made.request = .beginJob := by
  intro made madeMem otherNe
  by_contra more
  have isOwner := (state.executed made.call).mp ⟨made, madeMem, rfl, more⟩
  exact otherNe (Option.some.inj (isOwner.symm.trans ((state.executed call).mp executes)))

namespace Machine

variable {place : Nat} {mayReject : Session → Prop} {first last : Machine ω JobStatus}
  {trace : List Asked}

/-- The cursor of a job is where its requests have moved it. Whatever the job asks of a lock or of a
capability, some step asks for it, and whenever one does, the cursor is at the step. It names the
script that contains the step, unless other scripts were entered since that one began: then it names
the last of those. A backend is called with this cursor. -/
theorem Course.cursor_tells (opens : first.Opens place configuration)
    (course : Course place (· = configuration.runJob setting context) mayReject first trace last) :
    (∃ session, (last.view place).session = some session ∧
      session.cursor = Cursor.along (trace.map Asked.request)) ∧
    ∀ before made after, trace = before ++ made :: after → made.request.isOutward →
      let asked := Asked.ofCall before made.call
      let cursor := Cursor.along (before.map Asked.request)
      Nonempty (Asker setting (configuration.runJob setting context) asked made.request) ∧
        (∀ asker : Asker setting (configuration.runJob setting context) asked made.request,
          ∃ others, asker.entered = asker.script.name :: others ∧
            cursor = ⟨some (others.getLast?.getD asker.script.name), some asker.step.label⟩) ∧
          ∀ call, made.request = .perform call → call.context.cursor = cursor := by
  let program := configuration.runJob setting context
  rcases opens.session with ⟨listeners, hasOpened⟩
  rcases opens.jobState course with ⟨_, -, owner, state⟩
  have begins : Placed program [] (configuration.jobSession listeners) (first.view place).stages :=
    ⟨rfl, by simp [opens.noCalls], by simp⟩
  rcases (placed_courseLaw program mayReject).run [] course hasOpened begins with
    ⟨session, hasSession, placed⟩
  refine ⟨⟨session, hasSession, placed.cursor⟩, ?_⟩
  rintro before ⟨call, request, interrupted⟩ after rfl outward
  rcases placed.at_request with ⟨history, next, leads, isAsked⟩
  have executes : Executes (before ++ ⟨call, request, interrupted⟩ :: after) call := by
    refine ⟨_, List.mem_append_cons_self, rfl, ?_⟩
    rintro rfl
    exact nomatch outward
  have alone : Cursor.along (before.map Asked.request) =
      Cursor.along (Asked.ofCall before call) :=
    Cursor.along_ofCall fun made earlier =>
      state.begins_of_ne executes made (List.mem_append_left _ earlier)
  have askers := Configuration.exists_asker leads outward
  rw [isAsked] at askers
  refine ⟨askers, fun asker => ?_, ?_⟩
  · rcases asker.exists_others with ⟨others, isEntered, placed⟩
    exact ⟨others, isEntered, alone.trans (placed _)⟩
  · rintro performed rfl
    rcases askers with ⟨asker⟩
    rcases asker.exists_others with ⟨others, -, placed⟩
    calc
      performed.context.cursor =
          (history.map Exchange.request).foldl Request.placeAfter context.cursor :=
        Configuration.perform_cursor leads
      _ = (Asked.ofCall before call).foldl Request.placeAfter context.cursor := by rw [isAsked]
      _ = _ := placed _
      _ = Cursor.along (Asked.ofCall before call) := (placed _).symm
      _ = Cursor.along (before.map Asked.request) := alone.symm

end Machine

/-! ### A script that runs another one before it calls -/

/-- A script that runs another one, and then calls the log. -/
def Script.detouring : Script :=
  ⟨"s", "Outer", 1,
    [⟨"t", 1, .script ⟨"u", "Inner", 1, []⟩⟩,
      ⟨"a", 2, .action ⟨"Act", [⟨"log", "log", some "run", none⟩], [], none⟩⟩]⟩

def Configuration.detouring : Configuration where
  id := "c"
  name := "Detouring"
  environment := none
  release := none
  elements :=
    [⟨"e", "E", 1, .automatic, false, [], [.detouring], [], [],
      some ⟨"s", "S", 0, .many, false, false, .predecessor, false⟩⟩]

/-- The context that the script is run in. -/
def Context.detouring : Context :=
  { Context.ofProperties [] with
    properties := (Context.ofProperties []).properties.merge Configuration.detouring.properties }

/-- The call of the log. -/
def ActionCall.detouring : ActionCall where
  backend := "log"
  action := "Act"
  operation := "run"
  actionType := none
  metadata := [⟨"log", "log", some "run", none⟩]
  properties := []
  context := { Context.detouring with cursor := ⟨some "Inner", some "action a"⟩ }

/-- What the job asks before that call. It enters the script, the step that runs the other one, that
one, and the step that calls. -/
def Asked.detouring : List Asked :=
  let results := Configuration.detouring.elements.map fun element =>
    ElementResult.ofElement element element.schema ⟨0, 0⟩
  let requests : List Request :=
    [.beginJob, .checkpoint, .noteStart, .checkpoint, .now, .publish results,
      .now, .moveTo ⟨some "Outer", none⟩,
      .checkpoint, .moveTo ⟨some "Outer", some "test_script t"⟩,
      .now, .moveTo ⟨some "Inner", none⟩, .now,
      .checkpoint, .moveTo ⟨some "Inner", some "action a"⟩]
  requests.map fun request => ⟨0, request, false⟩

namespace Machine

/-- A call of the job that makes the detour, before its first poll. -/
def detouring : Machine Unit JobStatus :=
  ((Machine.initial .builtin (.initial 0 .empty ())).openSession
    (Configuration.detouring.jobSession [])).1.spawn 0
      (Configuration.detouring.runJob .logging (.ofProperties []))

theorem detouring_asks :
    ∃ after, detouring.asks 0 = Asked.detouring ++ ⟨0, .perform .detouring, false⟩ :: after :=
  ⟨_, Program.asks_of_answered rfl <| Program.asks_of_answered rfl <|
    Program.asks_of_answered rfl <| Program.asks_of_answered rfl <|
    Program.asks_of_answered rfl <| Program.asks_of_answered rfl <|
    Program.asks_of_answered rfl <| Program.asks_of_answered rfl <|
    Program.asks_of_answered rfl <| Program.asks_of_answered rfl <|
    Program.asks_of_answered rfl <| Program.asks_of_answered rfl <|
    Program.asks_of_answered rfl <| Program.asks_of_answered rfl <|
    Program.asks_of_answered rfl <| Program.asks_of_answered rfl rfl⟩

theorem course_detouring :
    ∃ first after, first.Opens 0 Configuration.detouring ∧
      Course 0 (· = Configuration.detouring.runJob .logging (.ofProperties [])) (fun _ => False)
        first (Asked.detouring ++ ⟨0, .perform .detouring, false⟩ :: after)
        (detouring.poll 0) := by
  let first : Machine Unit JobStatus :=
    ((Machine.initial .builtin (.initial 0 .empty ())).openSession
      (Configuration.detouring.jobSession [])).1
  have opens : first.Opens 0 Configuration.detouring :=
    openSession_opens _ _ _ (by simp [Machine.initial])
  let program := Configuration.detouring.runJob .logging (.ofProperties [])
  have spawns : Course 0 (· = program) (fun _ => False) first [] detouring :=
    .step .start (.spawn rfl)
  have polls : Step 0 (· = program) (fun _ => False) detouring (detouring.asks 0)
      (detouring.poll 0) := .poll rfl
  rcases detouring_asks with ⟨after, asks⟩
  rw [asks] at polls
  exact ⟨first, after, opens, spawns.step polls⟩

/-- The log is called by the step labelled with its action, in the script that was entered last. -/
theorem detouring_cursor_tells :
    ∃ first after, first.Opens 0 Configuration.detouring ∧
      Course 0 (· = Configuration.detouring.runJob .logging (.ofProperties [])) (fun _ => False)
        first (Asked.detouring ++ ⟨0, .perform .detouring, false⟩ :: after) (detouring.poll 0) ∧
      ∃ asker : Asker .logging (Configuration.detouring.runJob .logging (.ofProperties []))
          (Asked.ofCall Asked.detouring 0) (.perform .detouring),
        ∃ others, asker.entered = asker.script.name :: others ∧
          (⟨some "Inner", some "action a"⟩ : Cursor) =
            ⟨some (others.getLast?.getD asker.script.name), some asker.step.label⟩ := by
  rcases course_detouring with ⟨first, after, opens, course⟩
  rcases (Course.cursor_tells opens course).2 _ _ _ rfl rfl with ⟨⟨asker⟩, tells, called⟩
  rcases tells asker with ⟨others, isEntered, isCursor⟩
  exact ⟨first, after, opens, course, asker, others, isEntered,
    (called .detouring rfl).trans isCursor⟩

/-- The step that calls the log is in the one script, and the cursor names the other. -/
theorem detouring_names_other :
    ∃ first after, first.Opens 0 Configuration.detouring ∧
      Course 0 (· = Configuration.detouring.runJob .logging (.ofProperties [])) (fun _ => False)
        first (Asked.detouring ++ ⟨0, .perform .detouring, false⟩ :: after) (detouring.poll 0) ∧
      ∃ asker : Asker .logging (Configuration.detouring.runJob .logging (.ofProperties []))
          (Asked.ofCall Asked.detouring 0) (.perform .detouring),
        asker.script.name = "Outer" ∧
          Cursor.along (Asked.detouring.map Asked.request) = ⟨some "Inner", some "action a"⟩ := by
  rcases course_detouring with ⟨first, after, opens, course⟩
  let frame := Script.detouring.opening .detouring
  let inner : TestEngine.Step := ⟨"t", 1, .script ⟨"u", "Inner", 1, []⟩⟩
  let visited := ((inner.visit .logging).run.run frame).tell Request.refused
  have occurs : (⟨inner, frame, visited.1, .ok .next, visited.2.2⟩ : Passage Unit).Occurs
      .logging := Program.yields_tell Request.refused ((inner.visit .logging).run.run frame)
  have approach : Approach .logging Script.detouring.steps frame _ _ visited.2.2 :=
    .among rfl (.next occurs .done)
  have calls : Script.detouring.Calls .logging .detouring _ _ (.perform .detouring) :=
    .intro (⟨0, 0⟩ : Calendar.Instant) approach (.intro () ()) rfl
  -- The job begins, its walk enters the element, and the first that this one has is the script.
  have comes : (Configuration.detouring.runJob .logging (.ofProperties [])).ComesUpon _
      (Script.detouring.run .logging .detouring) :=
    .ask none () <| .bind (.ask true () <| .ask () () <| .bind (.bind (.ask true () <|
      .ask (⟨0, 0⟩ : Calendar.Instant) () <| .ask () () <| .bind (.bind .itself _) _) _) _) _
  exact ⟨first, after, opens, course, ⟨_, _, _, _, _, comes, calls, rfl⟩, rfl, rfl⟩

end Machine

end TestEngine
