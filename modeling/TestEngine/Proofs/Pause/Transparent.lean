import TestEngine.Proofs.Job.State
import TestEngine.Proofs.Pause.Scheduled
import TestEngine.Proofs.Pause.Unpaused
import TestEngine.Proofs.Pause.Walk

/-!
# Pauses are transparent

A job that is alone may be paused and resumed at any moments. If its configuration is timeless, it
ends as it does without any pause: with the same status, the same calls of capabilities, the same
properties in its context, and a result that differs in times at most. And if it ends at all with
pauses, it ends without them.
-/

namespace TestEngine

variable {ω α β : Type}

/-! ### Transparency -/

/-- What a client sends who pauses a run and resumes it. -/
def IsPausing (signal : Signal) : Prop := signal = .pause ∨ signal = .resume

namespace Situation

section Transparent

variable (registry : Registry ω) (view : α → β)

/-- A task of which it does not show whether it was paused on its way. All that counts of its value
is a view of it. -/
structure PauseTransparent (first : Situation ω α) : Prop where
  agrees : ∀ {trace plainTrace : List Request} {paused plain : Situation ω α} {value other : α},
    Solo registry IsPausing first trace paused → paused.stage = .done value →
      Solo registry NoSignal first plainTrace plain → plain.stage = .done other →
        view value = view other ∧ callsOf trace = callsOf plainTrace ∧
          paused.session.control.status = plain.session.control.status ∧
            paused.session.result.untimed = plain.session.result.untimed
  returns : registry.NeverPauses →
    ∀ {trace : List Request} {paused : Situation ω α} {value : α},
      Solo registry IsPausing first trace paused → paused.stage = .done value →
        first.Returns registry

end Transparent

variable {registry : Registry ω} {view : α → β} {session : Session} {world : World ω}

/-- The task of a new job is transparent to pauses if its program lets no time decide anything. -/
theorem pauseTransparent_of_begins {next : Request.beginJob.Answer → Program α}
    (alike : (next none).Alike (fun value other => view value = view other) (next none))
    (isNew : session.control.status = .initialized) (unpaused : session.control.paused = false) :
    PauseTransparent registry view ⟨session, world, .ready (.ask .beginJob next)⟩ := by
  let first : Situation ω α := ⟨session, world, .ready (.ask .beginJob next)⟩
  have steady : first.stage.Steady (fun value other => view value = view other) first.session :=
    .begins isNew alike
  have shown : first.stage.ShowsPause first.session := by
    intro isPaused
    exact nomatch isNew.symm.trans isPaused
  have transitive (value middle other : α) (before : view value = view middle)
      (after : view middle = view other) : view value = view other := before.trans after
  have comesTo {permits : Signal → Prop} {trace : List Request} {last : Situation ω α} {value : α}
      (course : Solo registry permits first trace last)
      (peaceful : ∀ signal, permits signal → signal ≠ .interrupt)
      (returned : last.stage = .done value) :=
    course.alone_of_returned transitive steady shown peaceful returned
  have pausing : ∀ signal, IsPausing signal → signal ≠ .interrupt := by
    rintro signal (rfl | rfl) <;> exact Signal.noConfusion
  refine ⟨fun course returned plainCourse plainReturned => ?_, fun neverPauses => ?_⟩
  · rcases comesTo course pausing returned with ⟨ended, alone, calls, sameValue, sameSession,
      notPaused⟩
    rcases comesTo plainCourse (fun _ => False.elim) plainReturned with ⟨other, otherAlone,
      otherCalls, otherValue, otherSession, otherNotPaused⟩
    obtain rfl := Option.some.inj (alone.symm.trans otherAlone)
    have sameCore := sameSession.symm.trans otherSession
    exact ⟨sameValue.symm.trans otherValue, calls.symm.trans otherCalls,
      Session.status_eq_of_core_eq sameCore notPaused otherNotPaused,
      (Session.core_eq_iff.mp sameCore).2.2.1⟩
  · intro trace paused value course returned
    rcases comesTo course pausing returned with ⟨ended, alone, -⟩
    refine returns_of_begins alike neverPauses unpaused isNew ?_
    exact Option.isSome_iff_exists.mpr ⟨ended, alone⟩

end Situation

/-! ### Jobs -/

/-- The program of a job that hands out what its walk has left together with the job's status. -/
def Configuration.runKeeping (setting : Setting) (configuration : Configuration)
    (context : Context) : Program (JobStatus × Option ConfigurationRun) := do
  match ← Program.request .beginJob with
  | some status => return (status, none)
  | none =>
    let ran ← configuration.run setting context
    let status ← Program.request (.endJob ran.ending)
    return (status, some ran)

/-- A job is run in the same way whether or not what its walk has left is handed out. -/
theorem Configuration.runJob_eq_runKeeping (setting : Setting) (configuration : Configuration)
    (context : Context) :
    configuration.runJob setting context =
      Prod.fst <$> configuration.runKeeping setting context := by
  refine congrArg (Program.ask .beginJob) (funext fun answer => ?_)
  cases answer with
  | some status => rfl
  | none =>
      change (configuration.run setting context >>= fun ran => _) =
        ((configuration.run setting context >>= fun ran => _) >>= fun kept => _)
      rw [bind_assoc]
      rfl

/-- A walk without its times. -/
def ConfigurationRun.untimed (ran : ConfigurationRun) : ConfigurationRun :=
  { ran with results := ran.results.map ElementResult.untimed }

theorem ConfigurationRun.Alike.untimed_eq {ran other : ConfigurationRun} (alike : ran.Alike other) :
    ran.untimed = other.untimed := by
  rw [untimed, untimed, alike.results, alike.configuration, alike.ending, alike.context]

variable {setting : Setting} {configuration : Configuration} {context : Context}

/-- Pauses of a job whose configuration is timeless show neither in the status that it ends with nor
in what its walk leaves, in its result, or in the calls that it makes. -/
theorem pauses_transparent (timeless : configuration.Timeless)
    (registry : Registry ω) {session : Session} (world : World ω)
    (isNew : session.control.status = .initialized) (unpaused : session.control.paused = false) :
    Situation.PauseTransparent registry id
        ⟨session, world, .ready (configuration.runJob setting context)⟩ ∧
      Situation.PauseTransparent registry (Prod.map id (Option.map ConfigurationRun.untimed))
        ⟨session, world, .ready (configuration.runKeeping setting context)⟩ := by
  have walks := Configuration.run_alike setting timeless context
  refine ⟨Situation.pauseTransparent_of_begins ?_ isNew unpaused,
    Situation.pauseTransparent_of_begins ?_ isNew unpaused⟩
  · refine walks.bind fun ran other alike => ?_
    rw [alike.ending]
    exact .ask rfl fun status => .done rfl
  · refine walks.bind fun ran other alike => ?_
    rw [alike.ending]
    refine .request rfl fun status => .done ?_
    rw [Prod.map_apply, Prod.map_apply, Option.map_some, Option.map_some, alike.untimed_eq]

/-! ### A small job -/

/-- A configuration whose script calls a backend twice and waits in between. -/
def Configuration.looping : Configuration where
  id := "c"
  name := "Looping"
  environment := none
  release := none
  elements :=
    [⟨"e", "E", 1, .automatic, false, [],
      [⟨"s", "Script", 1,
        [⟨"l", 1, .loop ⟨2, 0, none, 5⟩
          [⟨"a", 1, .action ⟨"Act", [⟨"log", "log", some "run", none⟩], [], none⟩⟩]⟩]⟩],
      [], [], some ⟨"s", "S", 0, .many, false, false, .predecessor, false⟩⟩]

theorem Configuration.looping_timeless : Configuration.looping.Timeless := by
  refine List.forall_mem_singleton.mpr (.intro (by decide) ?_ ?_)
  · exact List.forall_mem_singleton.mpr ⟨⟨rfl, trivial, trivial⟩, trivial⟩
  · exact fun child childMem => nomatch childMem

/-- What the runs have in common that call the capabilities that are always there. -/
def Setting.builtin : Setting := ⟨(Registry.builtin : Registry Unit).catalog, 0, true⟩

/-- The task of a job for that configuration, which nobody has polled yet. -/
def Situation.looping : Situation Unit JobStatus where
  session := Configuration.looping.jobSession ["client"]
  world := .initial 0 .empty ()
  stage := .ready (Configuration.looping.runJob .builtin (.ofProperties []))

/-- The job is paused while its loop waits and resumed at once. That cuts the wait short, and shows
in nothing else. -/
theorem sample_pauses_transparent :
    ∃ (trace plainTrace : List Request) (paused plain : Situation Unit JobStatus),
      Situation.Solo .builtin IsPausing .looping trace paused ∧ paused.stage = .done .finished ∧
        Situation.Solo .builtin Situation.NoSignal .looping plainTrace plain ∧
          plain.stage = .done .finished ∧ paused.world.clock = 0 ∧ plain.world.clock = 5 ∧
            callsOf trace = callsOf plainTrace ∧
              paused.session.control.status = plain.session.control.status ∧
                paused.session.result.untimed = plain.session.result.untimed := by
  let opened : Machine Unit JobStatus :=
    ((Machine.initial .builtin (.initial 0 .empty ())).openSession
      (Configuration.looping.jobSession ["client"])).1
  let first := opened.spawn 0 (Configuration.looping.runJob Setting.builtin (.ofProperties []))
  have shows : first.Shows 0 0 .looping := ⟨rfl, rfl, rfl⟩
  let halted := ((first.poll 0).modifyControl 0 Signal.pause.act).poll 0
  let resumed := halted.modifyControl 0 Signal.resume.act
  have course : Machine.Solo 0 0 IsPausing first _ resumed :=
    ((Machine.Solo.start.poll.signal (.inl rfl)).poll).signal (.inr rfl)
  have plainCourse : Machine.Solo 0 0 Situation.NoSignal first [] first := .start
  rcases course.runToEnd (by decide +kernel) 9 with ⟨trace, course⟩
  rcases plainCourse.runToEnd (by decide +kernel) 9 with ⟨plainTrace, plainCourse⟩
  rcases course.situations shows with ⟨-, paused, showsPaused, solo⟩
  rcases plainCourse.situations shows with ⟨-, plain, showsPlain, plainSolo⟩
  have returned : paused.stage = .done .finished := showsPaused.stage_of_value (by decide +kernel)
  have plainReturned : plain.stage = .done .finished :=
    showsPlain.stage_of_value (by decide +kernel)
  have clock : (resumed.runToEnd 9).world.clock = 0 := by decide +kernel
  have plainClock : (first.runToEnd 9).world.clock = 5 := by decide +kernel
  rcases (pauses_transparent Configuration.looping_timeless .builtin (.initial 0 .empty ()) rfl
    rfl).1.agrees solo returned plainSolo plainReturned with ⟨-, sameCalls, sameStatus, sameResult⟩
  exact ⟨trace, plainTrace, paused, plain, solo, returned, plainSolo, plainReturned,
    showsPaused.world ▸ clock, showsPlain.world ▸ plainClock, sameCalls, sameStatus, sameResult⟩

end TestEngine
