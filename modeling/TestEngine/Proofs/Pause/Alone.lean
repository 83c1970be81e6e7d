import TestEngine.Proofs.Machine.Trace

/-!
# Runs that have the world to themselves

What a run comes to if nobody disturbs it and every wait is over at once, as one value: the calls of
capabilities that it makes, the value that it ends with, and what it leaves behind. There is none if
the run waits for something that never happens.

A task gets there in many steps, and `Stage.alone` says of a task under way what it will have come
to. A step does not change that: the calls that the task was to make before are the one that it
makes in the step, if it makes one, and those that it is to make afterwards.
-/

namespace TestEngine

variable {ω α : Type}

/-! ### Activities -/

/-- How the call of a capability ended. -/
structure ActivityEnd (ω α : Type) where
  session : Session
  world : World ω
  lines : List String
  reply : Reply α

/-- What becomes of an activity whose sleeps are over at once. -/
def Activity.alone : Activity ω α → Session → World ω → List String → Option (ActivityEnd ω α)
  | .finish answer, session, world, lines => some ⟨session, world, lines, .returned answer⟩
  | .crash, session, world, lines => some ⟨session, world, lines, .crashed⟩
  | .hang, session, world, lines =>
    if session.abandons then some ⟨session, world, lines, .abandoned⟩ else none
  | .sleep duration next, session, world, lines =>
    if duration = 0 then next.alone session world lines
    else if session.abandons then some ⟨session, (world.setAlarm duration).1, lines, .abandoned⟩
    else next.alone session (world.setAlarm duration).1 lines
  | .log line next, session, world, lines => next.alone session world (lines ++ [line])
  | .signal sent next, session, world, lines => next.alone (session.receive sent) world lines
  | .consult effect next, session, world, lines =>
    (next world.state).alone session { world with state := effect world.state } lines

/-- What becomes of an activity that sleeps until an alarm or for ever. -/
def Activity.awaited (activity : Activity ω α) (alarm : Option Alarm) (session : Session)
    (world : World ω) (lines : List String) : Option (ActivityEnd ω α) :=
  if session.abandons then some ⟨session, world, lines, .abandoned⟩
  else alarm.bind fun _ => activity.alone session world lines

def ActivityRun.alone (run : ActivityRun ω α) : Option (ActivityEnd ω α) :=
  match run.halt with
  | .returned answer => some ⟨run.session, run.world, run.lines, .returned answer⟩
  | .crashed => some ⟨run.session, run.world, run.lines, .crashed⟩
  | .suspended activity alarm => activity.awaited alarm run.session run.world run.lines

theorem Activity.alone_advance (activity : Activity ω α) (session : Session) (world : World ω)
    (lines : List String) :
    (activity.advance session world lines).alone = activity.alone session world lines := by
  induction activity generalizing session world lines with
  | finish answer => rfl
  | crash => rfl
  | hang => rfl
  | sleep duration next ih =>
      rw [advance, Activity.alone]
      split
      · exact ih session world lines
      · rfl
  | log line next ih => exact ih session world (lines ++ [line])
  | signal sent next ih => exact ih (session.receive sent) world lines
  | consult effect next ih => exact ih world.state session _ lines

/-! ### Requests -/

/-- A request that has its answer. -/
structure Settled (ω : Type) (request : Request) where
  session : Session
  world : World ω
  answer : request.Answer

/-- What becomes of a request that waits. A lock that is taken stays so, and a run that is paused
goes on. -/
def Wait.alone {request : Request} (session : Session) (world : World ω) :
    Wait ω request → Option (Settled ω request)
  | checkpoint =>
    let noticed := (session.mapControl Control.wake).notice
    some ⟨noticed.1, world, !noticed.2⟩
  | pause => some ⟨session.mapControl Control.wake, world, ()⟩
  | interaction =>
    let ended := (session.mapControl Control.wake).endInteraction
    some ⟨ended.1, world, ended.2⟩
  | sleep _ _ => some ⟨session, world, ()⟩
  | @line _ lock _ ticket _ =>
    if world.locks.isOwner lock ticket then some ⟨session, world, .granted⟩
    else some ⟨session, world.giveUpLock lock ticket, .timedOut⟩
  | performing activity alarm =>
    (activity.awaited alarm session world []).map fun ended =>
      ⟨ended.session, ended.world, ended.reply⟩
  | executing activity alarm lines =>
    (activity.awaited alarm session world lines).map fun ended =>
      ⟨ended.session, ended.world, (ended.lines, ended.reply)⟩

def Carried.alone {request : Request} (carried : Carried ω request) : Option (Settled ω request) :=
  match carried.outcome with
  | .answered answer => some ⟨carried.session, carried.world, answer⟩
  | .waiting wait => wait.alone carried.session carried.world

/-- Whether nothing but what it waits for ends a wait: there is no interruption that would have the
run give up on a lock or a capability. -/
def Wait.IsCalm {request : Request} (session : Session) : Wait ω request → Prop
  | line _ _ => session.control.interrupted = false
  | performing _ _ | executing _ _ _ => session.abandons = false
  | _ => True

/-! ### Calls of capabilities -/

/-- How a request calls a capability: what it makes of the lines and the reply, what it waits for
meanwhile, and which lines it goes on with. -/
structure CallForm (ω α : Type) (request : Request) where
  answer : List String → Reply α → request.Answer
  wait : List String → Activity ω α → Option Alarm → Wait ω request
  kept : List String → List String
  isAwake_wait : ∀ lines activity alarm session world,
    (wait lines activity alarm).isAwake session world =
      (session.abandons || alarm.any world.isDue)
  resume_wait : ∀ lines activity alarm session world, session.abandons = false →
    (wait lines activity alarm).resume session world =
      let run := activity.advance session world (kept lines)
      run.carried run.session.abandons (answer run.lines) (wait run.lines)
  alone_wait : ∀ lines activity alarm session world,
    (wait lines activity alarm).alone session world =
      (activity.awaited alarm session world (kept lines)).map fun ended =>
        ⟨ended.session, ended.world, answer ended.lines ended.reply⟩
  isCalm_wait : ∀ lines activity alarm session,
    (wait lines activity alarm).IsCalm session ↔ session.abandons = false
  /-- The lines that are not kept do not matter. -/
  answer_kept : ∀ lines others reply,
    answer (kept lines ++ others) reply = answer (lines ++ others) reply

namespace CallForm

def performing (call : ActionCall) :
    CallForm ω (Except EngineError ActionResponse) (.perform call) where
  answer _ reply := reply
  wait _ activity alarm := .performing activity alarm
  kept _ := []
  isAwake_wait _ _ _ _ _ := rfl
  resume_wait _ _ _ _ _ keeps := by
    simp only [Wait.resume, keeps, World.heed_false, Bool.false_and, Bool.or_false]
    rfl
  alone_wait _ _ _ _ _ := rfl
  isCalm_wait _ _ _ _ := .rfl
  answer_kept _ _ _ := rfl

def executing (call : FunctionCall) :
    CallForm ω (Except EngineError (List Property)) (.execute call) where
  answer lines reply := (lines, reply)
  wait lines activity alarm := .executing activity alarm lines
  kept lines := lines
  isAwake_wait _ _ _ _ _ := rfl
  resume_wait _ _ _ _ _ keeps := by
    simp only [Wait.resume, keeps, World.heed_false, Bool.false_and, Bool.or_false]
    rfl
  alone_wait _ _ _ _ _ := rfl
  isCalm_wait _ _ _ _ := .rfl
  answer_kept _ _ _ := rfl

variable {request : Request} (form : CallForm ω α request)

def settled (ended : ActivityEnd ω α) : Settled ω request :=
  ⟨ended.session, ended.world, form.answer ended.lines ended.reply⟩

/-- What becomes of a call whose activity ran as far as it goes. -/
def carried (run : ActivityRun ω α) (abandoned : Bool) : Carried ω request :=
  run.carried abandoned (form.answer run.lines) (form.wait run.lines)

/-- What becomes of a call that is made, or whose activity is woken. -/
def call (activity : Activity ω α) (session : Session) (world : World ω) (lines : List String) :
    Carried ω request :=
  let run := activity.advance session world lines
  form.carried run run.session.abandons

theorem alone_kept (activity : Activity ω α) (session : Session) (world : World ω)
    (lines : List String) :
    (activity.alone session world (form.kept lines)).map form.settled =
      (activity.alone session world lines).map form.settled := by
  have general (others : List String) :
      (activity.alone session world (form.kept lines ++ others)).map form.settled =
        (activity.alone session world (lines ++ others)).map form.settled := by
    induction activity generalizing session world others with
    | finish answer =>
        simp only [Activity.alone, Option.map_some, settled, form.answer_kept lines others]
    | crash => simp only [Activity.alone, Option.map_some, settled, form.answer_kept lines others]
    | hang =>
        simp only [Activity.alone]
        split
        · simp only [Option.map_some, settled, form.answer_kept lines others]
        · rfl
    | sleep duration next ih =>
        simp only [Activity.alone]
        split
        · exact ih session world others
        · split
          · simp only [Option.map_some, settled, form.answer_kept lines others]
          · exact ih session _ others
    | log line next ih => simpa only [Activity.alone, List.append_assoc] using ih session world _
    | signal sent next ih => exact ih (session.receive sent) world others
    | consult effect next ih => exact ih world.state session _ others
  simpa using general []

/-- What becomes of a call does not depend on how often it has to wait. -/
theorem alone_carried (run : ActivityRun ω α) {abandoned : Bool}
    (abandons : abandoned = true → run.session.abandons = true) :
    (form.carried run abandoned).alone = run.alone.map form.settled := by
  rcases run with ⟨session, world, lines, answer | _ | ⟨activity, alarm⟩⟩
  · rfl
  · rfl
  · simp only [carried, ActivityRun.carried, ActivityRun.alone, Activity.awaited]
    cases abandoned with
    | true =>
        rw [if_pos rfl, if_pos (abandons rfl)]
        rfl
    | false =>
        rw [if_neg Bool.false_ne_true]
        simp only [Carried.alone, form.alone_wait, Activity.awaited]
        split
        · simpa [settled] using form.answer_kept lines [] .abandoned
        · cases alarm with
          | none => rfl
          | some alarm => exact form.alone_kept activity session world lines

theorem alone_call (activity : Activity ω α) (session : Session) (world : World ω)
    (lines : List String) : (form.call activity session world lines).alone =
      (activity.alone session world lines).map form.settled := by
  rw [call, form.alone_carried _ id, Activity.alone_advance]

theorem alone_resume (lines : List String) {activity : Activity ω α} {alarm : Option Alarm}
    {session : Session} {world : World ω}
    (awake : (form.wait lines activity alarm).isAwake session world)
    (keeps : session.abandons = false) :
    ((form.wait lines activity alarm).resume session world).alone =
      (form.wait lines activity alarm).alone session world := by
  rw [form.isAwake_wait, keeps, Bool.false_or] at awake
  have rings : alarm.isSome := by
    cases alarm with
    | none => cases awake
    | some alarm => rfl
  rcases Option.isSome_iff_exists.mp rings with ⟨alarm, rfl⟩
  have resumed := form.alone_call activity session world (form.kept lines)
  rw [form.resume_wait _ _ _ _ _ keeps, form.alone_wait, Activity.awaited, keeps,
    if_neg Bool.false_ne_true]
  exact resumed

end CallForm

/-- A wait that is over comes to what it was to come to. -/
theorem Wait.alone_resume {request : Request} {wait : Wait ω request} {session : Session}
    {world : World ω} (awake : wait.isAwake session world) (calm : wait.IsCalm session) :
    (wait.resume session world).alone = wait.alone session world := by
  cases wait with
  | checkpoint => rfl
  | pause => rfl
  | interaction => rfl
  | sleep alarm seen => rfl
  | performing activity alarm => exact (CallForm.performing _).alone_resume [] awake calm
  | executing activity alarm lines => exact (CallForm.executing _).alone_resume lines awake calm
  | line ticket alarm =>
      rw [IsCalm] at calm
      simp only [Wait.resume, Wait.alone, calm, World.heed_false, Session.leaveLine]
      rw [if_neg Bool.false_ne_true]
      split
      · rfl
      · rename_i notOwner
        have due : world.isDue alarm = true := by
          simpa [isAwake, calm, notOwner] using awake
        rw [if_pos due]
        rfl

/-! ### Runs -/

/-- The calls of capabilities among requests, in order. -/
def callsOf (requests : List Request) : List Request := requests.filter Request.isCall

theorem callsOf_append (requests others : List Request) :
    callsOf (requests ++ others) = callsOf requests ++ callsOf others :=
  List.filter_append ..

/-- What a run comes to. -/
structure RunEnd (ω α : Type) where
  calls : List Request
  value : α
  session : Session
  world : World ω

/-- The end of a run that has made some calls before. -/
def RunEnd.behind (calls : List Request) (ended : RunEnd ω α) : RunEnd ω α :=
  { ended with calls := calls ++ ended.calls }

theorem RunEnd.behind_append (before calls : List Request) (ended : Option (RunEnd ω α)) :
    ended.map (behind (before ++ calls)) = (ended.map (behind calls)).map (behind before) := by
  rw [Option.map_map]
  congr 1
  funext ended
  simp [behind]

theorem RunEnd.behind_nil (ended : Option (RunEnd ω α)) : ended.map (behind []) = ended := by
  cases ended <;> rfl

def Program.alone (registry : Registry ω) :
    Program α → Session → World ω → Option (RunEnd ω α)
  | .done value, session, world => some ⟨[], value, session, world⟩
  | .ask request next, session, world =>
    (request.carryOut registry session world).alone.bind fun settled =>
      ((next settled.answer).alone registry settled.session settled.world).map
        (RunEnd.behind (callsOf [request]))

/-- What a task comes to that is at a stage. -/
def Stage.alone (registry : Registry ω) (session : Session) (world : World ω) :
    Stage ω α → Option (RunEnd ω α)
  | .ready program => program.alone registry session world
  | .waiting wait next =>
    (wait.alone session world).bind fun settled =>
      (next settled.answer).alone registry settled.session settled.world
  | .done value => some ⟨[], value, session, world⟩

def Situation.alone (registry : Registry ω) (situation : Situation ω α) : Option (RunEnd ω α) :=
  situation.stage.alone registry situation.session situation.world

/-- What a task is left with whose request was carried out as far as it goes without waiting. -/
def Carried.situation {request : Request} (carried : Carried ω request)
    (next : request.Answer → Program α) : Situation ω α :=
  match carried.outcome with
  | .answered answer => ⟨carried.session, carried.world, .ready (next answer)⟩
  | .waiting wait => ⟨carried.session, carried.world, .waiting wait next⟩

theorem Carried.alone_situation (registry : Registry ω) {request : Request}
    (carried : Carried ω request) (next : request.Answer → Program α) :
    (carried.situation next).alone registry =
      carried.alone.bind fun settled =>
        (next settled.answer).alone registry settled.session settled.world := by
  rw [situation, Carried.alone]
  cases carried.outcome <;> rfl

/-- Carrying out a request does not change what the task comes to. -/
theorem Program.alone_ask (registry : Registry ω) {request : Request}
    (next : request.Answer → Program α) (session : Session) (world : World ω) :
    (((request.carryOut registry session world).situation next).alone registry).map
        (RunEnd.behind (callsOf [request])) =
      (Program.ask request next).alone registry session world := by
  rw [Carried.alone_situation, Option.map_bind]
  rfl

/-- Nor does going on once a wait is over. -/
theorem Stage.alone_resume (registry : Registry ω) {request : Request} {wait : Wait ω request}
    (next : request.Answer → Program α) {session : Session} {world : World ω}
    (awake : wait.isAwake session world) (calm : wait.IsCalm session) :
    ((wait.resume session world).situation next).alone registry =
      (Stage.waiting wait next).alone registry session world := by
  rw [Carried.alone_situation, Wait.alone_resume awake calm]
  rfl

end TestEngine
