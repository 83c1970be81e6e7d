import Mathlib.Logic.Function.Basic
import TestEngine.Proofs.Machine.Trace
import TestEngine.Proofs.Session.Onward

/-!
# Courses of a machine

What can happen around one session of a machine: its tasks are polled, new ones are spawned, clients
send signals, listeners come and go, the job may be rejected, and everything else that a machine
holds may change as it likes. A `Machine.Course` is any succession of such steps together with the
trace of the session's tasks. A property of all courses is proved once for each kind of step, on
what the machine shows of the session, and `CourseLaw.run` is the induction.
-/

namespace TestEngine

variable {ω α : Type}

/-! ### Views -/

/-- What a machine shows of one of its sessions: the session itself, and where the tasks stand that
work on it. -/
structure View (ω α : Type) where
  session : Option Session
  stages : Nat → Option (Stage ω α)

namespace Machine

def view (machine : Machine ω α) (place : Nat) : View ω α where
  session := machine.sessions[place]?
  stages call :=
    (machine.tasks[call]?.filter fun task => task.session = place).map Task.stage

variable {machine : Machine ω α} {place call : Nat} {session : Session} {stage : Stage ω α}

theorem view_stages_eq_some :
    (machine.view place).stages call = some stage ↔
      ∃ task, machine.tasks[call]? = some task ∧ task.session = place ∧ task.stage = stage := by
  simp only [view, Option.map_eq_some_iff, Option.filter_eq_some_iff, decide_eq_true_eq, and_assoc]

theorem view_stages_eq_done {value : α} :
    (machine.view place).stages call = some (.done value) ↔
      ((machine.view place).stages call).bind Stage.value? = some value := by
  rw [Option.bind_eq_some_iff]
  constructor
  · exact fun done => ⟨_, done, rfl⟩
  · rintro ⟨stage, hasStage, hasValue⟩
    cases stage with
    | done other => exact hasStage.trans (congrArg (some ∘ Stage.done) (Option.some.inj hasValue))
    | ready program => simp [Stage.value?] at hasValue
    | waiting wait next => simp [Stage.value?] at hasValue

theorem session_eq (hasSession : (machine.view place).session = some session) :
    machine.session place = session := by
  have found : machine.sessions[place]? = some session := hasSession
  rw [Machine.session, found]
  rfl

theorem asks_eq (hasSession : (machine.view place).session = some session)
    (hasStage : (machine.view place).stages call = some stage) :
    machine.asks call = stage.asks machine.registry call session machine.world := by
  rcases view_stages_eq_some.mp hasStage with ⟨task, hasTask, rfl, rfl⟩
  simp only [asks, hasTask, session_eq hasSession]

/-- Polling a task changes what the machine shows of the task and its session. -/
theorem view_poll (hasSession : (machine.view place).session = some session)
    (hasStage : (machine.view place).stages call = some stage) :
    (machine.poll call).view place =
      let after := stage.poll machine.registry session machine.world
      ⟨some after.session,
        Function.update (machine.view place).stages call (some after.stage)⟩ := by
  rcases view_stages_eq_some.mp hasStage with ⟨task, hasTask, rfl, rfl⟩
  have inBounds : task.session < machine.sessions.length :=
    (List.getElem?_eq_some_iff.mp hasSession).1
  have callInBounds : call < machine.tasks.length := (List.getElem?_eq_some_iff.mp hasTask).1
  simp only [poll, hasTask, session_eq hasSession, view]
  congr 1
  · simp [inBounds]
  · funext other
    rcases eq_or_ne other call with rfl | otherNe
    · rw [List.getElem?_set_self callInBounds, Function.update_self, Option.filter_some,
        if_pos (decide_eq_true rfl)]
      rfl
    · simp [List.getElem?_set_ne otherNe.symm, otherNe]

theorem view_spawn (program : Program α) :
    (machine.spawn place program).view place =
      ⟨(machine.view place).session,
        Function.update (machine.view place).stages machine.tasks.length
          (some (.ready program))⟩ := by
  simp only [spawn, view]
  congr 1
  funext other
  rcases eq_or_ne other machine.tasks.length with rfl | otherNe
  · rw [List.getElem?_concat_length, Function.update_self, Option.filter_some,
      if_pos (decide_eq_true rfl)]
    rfl
  · rw [Function.update_of_ne otherNe]
    rcases Nat.lt_or_gt_of_ne otherNe with otherLt | otherGt
    · rw [List.getElem?_append_left otherLt]
    · have outside : (machine.tasks ++ [⟨place, .ready program, none⟩])[other]? = none := by
        refine List.getElem?_eq_none ?_
        rw [List.length_append]
        exact otherGt
      rw [outside, List.getElem?_eq_none (Nat.le_of_lt otherGt)]

theorem view_modifySession (change : Session → Session) :
    (machine.modifySession place change).view place =
      ⟨(machine.view place).session.map change, (machine.view place).stages⟩ := by
  simp [modifySession, view]

/-- Polling a task of another session changes nothing that is shown of this one. -/
theorem view_poll_of_none (noStage : (machine.view place).stages call = none) :
    (machine.poll call).view place = machine.view place := by
  rw [poll]
  split
  · rfl
  · rename_i task hasTask
    have elsewhere : task.session ≠ place := by
      intro here
      exact absurd (view_stages_eq_some.mpr ⟨task, hasTask, here, rfl⟩) (by simp [noStage])
    have callInBounds : call < machine.tasks.length := (List.getElem?_eq_some_iff.mp hasTask).1
    simp only [view]
    congr 1
    · simp [elsewhere]
    · funext other
      rcases eq_or_ne other call with rfl | otherNe
      · rw [List.getElem?_set_self callInBounds, hasTask, Option.filter_some, Option.filter_some,
          if_neg (by simpa using elsewhere), if_neg (by simpa using elsewhere)]
      · simp [List.getElem?_set_ne otherNe.symm]

/-! ### Courses -/

def listen (machine : Machine ω α) (place : Nat) (listener : String) : Machine ω α :=
  machine.modifySession place fun session =>
    { session with listeners := session.listeners ++ [listener] }

/-- Takes a listener of the session at a place away. -/
def forget (machine : Machine ω α) (place : Nat) (listener : String) : Machine ω α :=
  machine.modifySession place fun session =>
    { session with listeners := session.listeners.erase listener }

section Course

variable (place : Nat) (isJob : Program α → Prop) (mayReject : Session → Prop)

/-- A step around the session at a place, with what its tasks ask in it. Only some programs are
spawned for the session, and its job is rejected only as long as a condition holds. -/
inductive Step : Machine ω α → List Asked → Machine ω α → Prop
  | poll {machine : Machine ω α} {call : Nat} {stage : Stage ω α}
      (hasStage : (machine.view place).stages call = some stage) :
      Step machine (machine.asks call) (machine.poll call)
  | spawn {machine : Machine ω α} {program : Program α} (job : isJob program) :
      Step machine [] (machine.spawn place program)
  | signal {machine : Machine ω α} (signal : Signal) :
      Step machine [] (machine.modifyControl place signal.act)
  | listen {machine : Machine ω α} (listener : String) :
      Step machine [] (machine.listen place listener)
  | forget {machine : Machine ω α} (listener : String) :
      Step machine [] (machine.forget place listener)
  | reject {machine : Machine ω α} {session : Session}
      (hasSession : (machine.view place).session = some session) (may : mayReject session)
      (now : Calendar.Instant) :
      Step machine [] (machine.modifySession place fun session => session.reject now)
  /-- Something happens that does not concern the session. -/
  | elsewhere {machine other : Machine ω α} (same : other.view place = machine.view place) :
      Step machine [] other

/-- A succession of steps with the trace of all of them. -/
inductive Course : Machine ω α → List Asked → Machine ω α → Prop
  | start {machine : Machine ω α} : Course machine [] machine
  | step {first last next : Machine ω α} {trace asked : List Asked}
      (course : Course first trace last) (step : Step place isJob mayReject last asked next) :
      Course first (trace ++ asked) next

end Course

variable {isJob : Program α → Prop} {mayReject : Session → Prop}

theorem Course.trans {first middle last : Machine ω α} {before after : List Asked}
    (earlier : Course place isJob mayReject first before middle)
    (later : Course place isJob mayReject middle after last) :
    Course place isJob mayReject first (before ++ after) last := by
  induction later with
  | start => simpa using earlier
  | step _ step ih =>
      rw [← List.append_assoc]
      exact .step ih step

theorem Course.exists_step {first last : Machine ω α} {trace : List Asked}
    {arrived : Machine ω α → Prop} (course : Course place isJob mayReject first trace last)
    (notYet : ¬arrived first) (atLast : arrived last) :
    ∃ before middle asked next after, Course place isJob mayReject first before middle ∧
      ¬arrived middle ∧ Step place isJob mayReject middle asked next ∧ arrived next ∧
        Course place isJob mayReject next after last ∧ trace = before ++ asked ++ after := by
  induction course with
  | start => exact absurd atLast notYet
  | @step last next trace asked course step ih =>
      by_cases before : arrived last
      · rcases ih before with ⟨earlier, middle, turn, other, later, reaches, notYet, turns, arrived,
          goesOn, rfl⟩
        exact ⟨earlier, middle, turn, other, later ++ asked, reaches, notYet, turns, arrived,
          .step goesOn step, by simp⟩
      · exact ⟨trace, last, asked, next, [], course, before, step, atLast, .start, by simp⟩

/-- The cases of a proof that all courses keep an invariant of the trace, the session and the stages
of its tasks. -/
structure CourseLaw (isJob : Program α → Prop) (mayReject : Session → Prop)
    (keeps : List Asked → Session → (Nat → Option (Stage ω α)) → Prop) : Prop where
  poll {trace : List Asked} {session : Session} {stages : Nat → Option (Stage ω α)}
    (kept : keeps trace session stages) {call : Nat} {stage : Stage ω α}
    (hasStage : stages call = some stage) (registry : Registry ω) (world : World ω) :
    let after := stage.poll registry session world
    keeps (trace ++ stage.asks registry call session world) after.session
      (Function.update stages call (some after.stage))
  spawn {trace : List Asked} {session : Session} {stages : Nat → Option (Stage ω α)}
    (kept : keeps trace session stages) {program : Program α} (job : isJob program) {call : Nat}
    (isNew : stages call = none) :
    keeps trace session (Function.update stages call (some (.ready program)))
  signal {trace : List Asked} {session : Session} {stages : Nat → Option (Stage ω α)}
    (kept : keeps trace session stages) (signal : Signal) :
    keeps trace (session.mapControl signal.act) stages
  listen {trace : List Asked} {session : Session} {stages : Nat → Option (Stage ω α)}
    (kept : keeps trace session stages) (listeners : List String) :
    keeps trace { session with listeners } stages
  reject {trace : List Asked} {session : Session} {stages : Nat → Option (Stage ω α)}
    (kept : keeps trace session stages) (may : mayReject session) (now : Calendar.Instant) :
    keeps trace (session.reject now) stages

/-- Every course keeps the invariant, whatever was asked before. -/
theorem CourseLaw.run {keeps : List Asked → Session → (Nat → Option (Stage ω α)) → Prop}
    (law : CourseLaw isJob mayReject keeps) (before : List Asked) {first last : Machine ω α}
    {trace : List Asked} (course : Course place isJob mayReject first trace last)
    (hasSession : (first.view place).session = some session)
    (kept : keeps before session (first.view place).stages) :
    ∃ session, (last.view place).session = some session ∧
      keeps (before ++ trace) session (last.view place).stages := by
  induction course with
  | start => exact ⟨session, hasSession, by simpa using kept⟩
  | @step last _ _ _ _ step ih =>
      rcases ih with ⟨session, hasSession, kept⟩
      cases step with
      | poll hasStage =>
          rw [view_poll hasSession hasStage, asks_eq hasSession hasStage, ← List.append_assoc]
          exact ⟨_, rfl, law.poll kept hasStage _ _⟩
      | spawn job =>
          rw [view_spawn, List.append_nil]
          have isNew : (last.view place).stages last.tasks.length = none := by simp [view]
          exact ⟨session, hasSession, law.spawn kept job isNew⟩
      | signal signal =>
          rw [modifyControl, view_modifySession, hasSession, List.append_nil]
          exact ⟨_, rfl, law.signal kept signal⟩
      | listen listener =>
          rw [Machine.listen, view_modifySession, hasSession, List.append_nil]
          exact ⟨_, rfl, law.listen kept _⟩
      | forget listener =>
          rw [Machine.forget, view_modifySession, hasSession, List.append_nil]
          exact ⟨_, rfl, law.listen kept _⟩
      | reject hasRejected may now =>
          have sameSession := Option.some.inj (hasRejected.symm.trans hasSession)
          rw [view_modifySession, hasSession, List.append_nil]
          exact ⟨_, rfl, law.reject kept (sameSession ▸ may) now⟩
      | elsewhere same =>
          rw [same, List.append_nil]
          exact ⟨session, hasSession, kept⟩

/-- A task that has its session to itself keeps an invariant in every course if its polls keep it
and nothing matters of the session but the results. -/
theorem sole_courseLaw (call : Nat) (mayReject : Session → Prop)
    {keeps : Session → Stage ω α → Prop}
    (poll : ∀ (session : Session) (stage : Stage ω α) (registry : Registry ω) (world : World ω),
      keeps session stage → keeps (stage.poll registry session world).session
        (stage.poll registry session world).stage)
    (transfer : ∀ (before after : Session) (stage : Stage ω α),
      after.result.results = before.result.results → keeps before stage → keeps after stage) :
    CourseLaw (fun _ => False) mayReject
      fun _ session (stages : Nat → Option (Stage ω α)) =>
        ∃ stage, stages = Function.update (fun _ => none) call (some stage) ∧
          keeps session stage where
  poll := by
    rintro trace session stages ⟨stage, rfl, kept⟩ other polled hasStage registry world
    rcases eq_or_ne other call with rfl | otherNe
    · obtain rfl : stage = polled := by simpa using hasStage
      exact ⟨_, Function.update_idem .., poll session stage registry world kept⟩
    · simp [otherNe] at hasStage
  spawn _ _ never := never.elim
  signal := by
    rintro trace session stages ⟨stage, rfl, kept⟩ signal
    exact ⟨stage, rfl, transfer session _ stage rfl kept⟩
  listen := by
    rintro trace session stages ⟨stage, rfl, kept⟩ listeners
    exact ⟨stage, rfl, transfer session _ stage rfl kept⟩
  reject := by
    rintro trace session stages ⟨stage, rfl, kept⟩ - now
    exact ⟨stage, rfl, transfer session _ stage (session.reject_results now) kept⟩

/-! ### The scheduler -/

theorem view_wake (machine : Machine ω α) (place : Nat) :
    machine.wake.view place = machine.view place := rfl

theorem view_ring (machine : Machine ω α) (moment place : Nat) :
    (machine.ring moment).view place = machine.view place := rfl

theorem view_setClock (machine : Machine ω α) (moment : Option Nat) (place : Nat) :
    (machine.setClock moment).view place = machine.view place := by
  cases moment <;> rfl

theorem Course.drain {first last : Machine ω α} {trace : List Asked}
    (course : Course place isJob mayReject first trace last) (fuel : Nat) :
    ∃ trace, Course place isJob mayReject first trace (last.drain fuel) := by
  induction fuel generalizing last trace with
  | zero => exact ⟨trace, course⟩
  | succ fuel ih =>
      rw [Machine.drain]
      split
      · exact ⟨trace, course⟩
      · rename_i next rest queue
        have dequeued : Course place isJob mayReject first _ { last with queue := rest } :=
          course.step (.elsewhere rfl)
        cases hasStage : (Machine.view { last with queue := rest } place).stages next with
        | some stage =>
            exact ih ((dequeued.step (.poll hasStage)).step (.elsewhere (view_wake _ place)))
        | none => exact ih (dequeued.step (.elsewhere (view_poll_of_none hasStage)))

theorem Course.settle {first last : Machine ω α} {trace : List Asked}
    (course : Course place isJob mayReject first trace last) (fuel : Nat) :
    ∃ trace, Course place isJob mayReject first trace (last.settle fuel) :=
  (course.step (.elsewhere (view_wake last place))).drain fuel

theorem Course.advanceUntil {first last : Machine ω α} {trace : List Asked}
    (course : Course place isJob mayReject first trace last) (pollFuel : Nat)
    (stop : Machine ω α → Bool) (moment : Option Nat) (fuel : Nat) :
    ∃ trace, Course place isJob mayReject first trace
      (last.advanceUntil pollFuel stop moment fuel) := by
  induction fuel generalizing last trace with
  | zero => exact ⟨trace, course⟩
  | succ fuel ih =>
      have rested := course.step (.elsewhere (view_setClock last moment place))
      rw [Machine.advanceUntil]
      split
      · exact ⟨trace, course⟩
      · split
        · exact ⟨_, rested⟩
        · rename_i due _
          split
          · have rung := course.step (.elsewhere (view_ring last (max due last.world.clock) place))
            rcases rung.drain pollFuel with ⟨trace, drained⟩
            exact ih drained
          · exact ⟨_, rested⟩

end Machine

end TestEngine
