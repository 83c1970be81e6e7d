import TestEngine.Proofs.Machine.Course
import TestEngine.Proofs.Protocol

/-!
# Values of programs

What the value of a program is like whatever the answers to its requests are. No protocol is needed
for that: `Program.Always` goes through all answers there can be, and a task that has come to its
end on a machine, in whatever course, has come to one of the values.
-/

namespace TestEngine

variable {ω α β : Type}

/-- Whatever the answers are, the program ends with a value that satisfies a condition. -/
def Program.Always (condition : α → Prop) : Program α → Prop
  | .done value => condition value
  | .ask _ next => ∀ answer, (next answer).Always condition

namespace Program.Always

variable {condition : α → Prop}

theorem pure {value : α} (holds : condition value) :
    (Pure.pure value : Program α).Always condition := holds

theorem ask {request : Request} {next : request.Answer → Program α}
    (rest : ∀ answer, (next answer).Always condition) :
    (Program.request request >>= next).Always condition := rest

theorem bind {middle : β → Prop} {program : Program β} {next : β → Program α}
    (first : program.Always middle) (rest : ∀ value, middle value → (next value).Always condition) :
    (program >>= next).Always condition := by
  change (program.bind next).Always condition
  induction program with
  | done value => exact rest value first
  | ask request goOn ih => exact fun answer => ih answer (first answer)

theorem trivial (program : Program α) : program.Always fun _ => True := by
  induction program with
  | done value => exact True.intro
  | ask request next ih => exact ih

/-- A condition on all values has nothing to ask of what comes before them. -/
theorem thenAny {program : Program β} {next : β → Program α}
    (rest : ∀ value, (next value).Always condition) : (program >>= next).Always condition :=
  bind (trivial program) fun value _ => rest value

theorem imp {weaker : α → Prop} {program : Program α} (always : program.Always condition)
    (weakens : ∀ value, condition value → weaker value) : program.Always weaker := by
  induction program with
  | done value => exact weakens value always
  | ask request next ih => exact fun answer => ih answer (always answer)

theorem and {other : α → Prop} {program : Program α} (always : program.Always condition)
    (alsoAlways : program.Always other) :
    program.Always fun value => condition value ∧ other value := by
  induction program with
  | done value => exact ⟨always, alsoAlways⟩
  | ask request next ih => exact fun answer => ih answer (always answer) (alsoAlways answer)

end Program.Always

/-! ### Values of tasks -/

/-- Whatever the answers are, the task ends with a value that satisfies a condition. -/
def Stage.Always (condition : α → Prop) : Stage ω α → Prop
  | .ready program => program.Always condition
  | .waiting _ next => ∀ answer, (next answer).Always condition
  | .done value => condition value

theorem Program.Always.advance {condition : α → Prop} {program : Program α}
    (always : program.Always condition) (registry : Registry ω) (session : Session)
    (world : World ω) : (program.advance registry session world).stage.Always condition := by
  induction program generalizing session world with
  | done value => exact always
  | ask request next ih =>
      rw [Program.advance]
      cases (request.carryOut registry session world).outcome with
      | answered answer => exact ih answer (always answer) _ _
      | waiting wait => exact always

theorem Stage.Always.poll {condition : α → Prop} {stage : Stage ω α}
    (always : stage.Always condition) (registry : Registry ω) (session : Session)
    (world : World ω) : (stage.poll registry session world).stage.Always condition := by
  cases stage with
  | done value => exact always
  | ready program => exact Program.Always.advance always registry session world
  | waiting wait next =>
      simp only [Stage.poll]
      split
      · cases (wait.resume session world).outcome with
        | answered answer => exact Program.Always.advance (always answer) registry _ _
        | waiting wait => exact always
      · exact always

namespace Machine

variable {place call : Nat} {isJob : Program α → Prop} {mayReject : Session → Prop}
  {first last : Machine ω α} {trace : List Asked}

/-- In every course a task keeps to what always holds of its value. -/
theorem always_courseLaw (isJob : Program α → Prop) (mayReject : Session → Prop)
    (condition : α → Prop) (call : Nat) :
    CourseLaw isJob mayReject fun _ _ (stages : Nat → Option (Stage ω α)) =>
      ∃ stage, stages call = some stage ∧ stage.Always condition where
  poll := by
    rintro trace session stages ⟨stage, hasStage, always⟩ other polled hasPolled registry world
    rcases eq_or_ne call other with rfl | otherNe
    · obtain rfl := Option.some.inj (hasStage.symm.trans hasPolled)
      exact ⟨_, Function.update_self .., always.poll registry session world⟩
    · exact ⟨stage, (Function.update_of_ne otherNe ..).trans hasStage, always⟩
  spawn := by
    rintro trace session stages ⟨stage, hasStage, always⟩ program - other isNew
    have otherNe : call ≠ other := by
      rintro rfl
      exact nomatch hasStage.symm.trans isNew
    exact ⟨stage, (Function.update_of_ne otherNe ..).trans hasStage, always⟩
  signal kept _ := kept
  listen kept _ := kept
  reject kept _ _ := kept

/-- The value that a task has come to, in whatever course, is one that its program can end with. -/
theorem Course.always {condition : α → Prop} {program : Program α} {value : α}
    (course : Course place isJob mayReject first trace last)
    {session : Session} (hasSession : (first.view place).session = some session)
    (ready : (first.view place).stages call = some (.ready program))
    (always : program.Always condition)
    (returned : (last.view place).stages call = some (.done value)) : condition value := by
  rcases (always_courseLaw isJob mayReject condition call).run [] course hasSession
    ⟨_, ready, always⟩ with ⟨-, -, stage, hasStage, atLast⟩
  obtain rfl := Option.some.inj (hasStage.symm.trans returned)
  exact atLast

end Machine

end TestEngine
