import TestEngine.Proofs.Script.Transparency

/-!
# Runs with a reference resolved

What the two runs of a script ask and come to in the same surroundings, as long as no backend looks
at whether the cell is resolved in the context that it is handed. Either there is nothing to tell
the runs apart, or one of them comes to a step that takes the value of the cell as it stands, and
that is another one than the value which the cell takes from the one it refers to. Until then both
have asked the same.
-/

namespace TestEngine

variable {α β : Type}

/-! ### Runs in given surroundings -/

/-- Whether the answers of a history are the ones that some surroundings give, behind what was asked
before. -/
def Surroundings.Answer (surroundings : Surroundings) : List Request → List (Exchange Unit) → Prop
  | _, [] => True
  | asked, exchange :: rest => surroundings asked exchange.request = exchange.answer ∧
      surroundings.Answer (asked ++ [exchange.request]) rest

/-- In its surroundings a program goes on as the history that they answer leads it. -/
theorem Program.Leads.play {program rest : Program α} {history : List (Exchange Unit)}
    (leads : program.Leads history rest) {surroundings : Surroundings} {asked : List Request}
    (answer : surroundings.Answer asked history) :
    program.play surroundings asked =
      rest.play surroundings (asked ++ history.map Exchange.request) := by
  induction leads generalizing asked with
  | here => rw [List.map_nil, List.append_nil]
  | ask leads ih =>
      rcases answer with ⟨answers, answer⟩
      rw [Program.play, answers, ih answer, List.map_cons, List.append_assoc]
      rfl

/-- A script that comes to a step by answers of its surroundings goes on in them with what the step
does. -/
theorem Script.Comes.play {setting : Setting} {script : Script} {context : Context}
    {history : List (Exchange Unit)} {step : Step} {there : Frame}
    (comes : script.Comes setting context history step there) {surroundings : Surroundings}
    (answer : surroundings.Answer [] history) :
    ∃ rest : Except Abort Flow × Frame → Program ScriptRun,
      (script.run setting context).play surroundings [] =
        ((step.kind.visit setting).run.run there >>= rest).play surroundings
          (history.map Exchange.request) := by
  rcases comes.comesUpon with ⟨rest, leads⟩
  exact ⟨rest, leads.play answer⟩

/-- What was asked before is where the requests of a program go on. -/
theorem Program.prefix_play (program : Program α) (surroundings : Surroundings)
    (asked : List Request) : asked <+: (program.play surroundings asked).1 := by
  induction program generalizing asked with
  | done value => exact List.prefix_rfl
  | ask request next ih => exact (List.prefix_append _ _).trans (ih _ _)

namespace Indirection

variable (indirection : Indirection)

/-- Requests of which a backend is handed a context with the cell, and one with it resolved. -/
inductive SameRequest : Request → Request → Prop
  | same (request : Request) : SameRequest request request
  | perform {call other : ActionCall} (settles : indirection.SettlesCall call other) :
      SameRequest (.perform call) (.perform other)

/-- Surroundings in which no backend looks at whether the cell is resolved in its context. -/
structure Indifferent (surroundings : Surroundings) : Prop where
  history {asked otherAsked : List Request}
    (sameAsked : List.Forall₂ indirection.SameRequest asked otherAsked) (request : Request) :
    surroundings asked request = surroundings otherAsked request
  perform {call other : ActionCall} (sameCall : indirection.SettlesCall call other)
    (asked : List Request) :
    surroundings asked (.perform call) = surroundings asked (.perform other)

/-- The context with the cell resolved under its name. -/
def settled (context : Context) : Context :=
  { context with properties := context.properties.insert indirection.name indirection.resolved }

/-- Runs that have asked the same and have come to the same. -/
structure SamePlay (played other : List Request × ScriptRun) : Prop where
  requests : List.Forall₂ indirection.SameRequest played.1 other.1
  run : indirection.SettlesRun played.2 other.2

/-- Requests of which the first ones are the same as given ones. -/
def BeginsAlike (asked requests : List Request) : Prop :=
  ∃ begun, begun <+: requests ∧ List.Forall₂ indirection.SameRequest asked begun

/-- The run of a script comes to a step that takes the value of the cell as it stands, and the run
with the cell resolved asks the same until then. -/
def Parts (setting : Setting) (surroundings : Surroundings) (script : Script)
    (context : Context) : Prop :=
  ∃ history step there, surroundings.Answer [] history ∧
    script.Comes setting context history step there ∧ indirection.TakenAt step there ∧
    indirection.BeginsAlike (history.map Exchange.request)
      ((script.run setting (indirection.settled context)).play surroundings []).1

end Indirection

/-- What two programs ask and come to in surroundings that do not tell their requests apart. -/
theorem Program.Mirrors.play {indirection : Indirection} {same : α → β → Prop}
    {stops : List (Exchange Unit) → Prop} {program : Program α} {other : Program β}
    (mirrors : program.Mirrors indirection.SettlesCall same stops other)
    {surroundings : Surroundings} (indifferent : indirection.Indifferent surroundings)
    {asked otherAsked : List Request}
    (sameAsked : List.Forall₂ indirection.SameRequest asked otherAsked) :
    (List.Forall₂ indirection.SameRequest (program.play surroundings asked).1
        (other.play surroundings otherAsked).1 ∧
      same (program.play surroundings asked).2 (other.play surroundings otherAsked).2) ∨
    ∃ history, surroundings.Answer asked history ∧ stops history ∧
      indirection.BeginsAlike (asked ++ history.map Exchange.request)
        (other.play surroundings otherAsked).1 := by
  induction mirrors generalizing asked otherAsked with
  | done sameValue => exact .inl ⟨sameAsked, sameValue⟩
  | @ask _ request next otherNext _ ih =>
      have sameAnswer := indifferent.history sameAsked request
      have stillSame := List.rel_append sameAsked (.cons (.same request) .nil)
      rw [Program.play, Program.play, ← sameAnswer]
      refine (ih (surroundings asked request) stillSame).imp_right ?_
      rintro ⟨history, answer, stops, alike⟩
      rw [List.append_assoc] at alike
      exact ⟨⟨request, _, ()⟩ :: history, ⟨rfl, answer⟩, stops, alike⟩
  | @perform _ call other next otherNext sameCall _ ih =>
      have sameAnswer : surroundings asked (.perform call) =
          surroundings otherAsked (.perform other) :=
        (indifferent.perform sameCall asked).trans (indifferent.history sameAsked _)
      have stillSame := List.rel_append sameAsked (.cons (.perform sameCall) .nil)
      rw [Program.play, Program.play, ← sameAnswer]
      refine (ih (surroundings asked (.perform call)) stillSame).imp_right ?_
      rintro ⟨history, answer, stops, alike⟩
      rw [List.append_assoc] at alike
      exact ⟨⟨.perform call, _, ()⟩ :: history, ⟨rfl, answer⟩, stops, alike⟩
  | apart stopsHere =>
      refine .inr ⟨[], True.intro, stopsHere, otherAsked, Program.prefix_play _ _ _, ?_⟩
      rw [List.map_nil, List.append_nil]
      exact sameAsked

/-- How far a script sees through a reference. -/
structure Indirection.SeenThrough (indirection : Indirection) (setting : Setting)
    (surroundings : Surroundings) (script : Script) (context : Context) : Prop where
  /-- The runs are the same unless a step takes the value of the cell as it stands, and that is not
  the one that the cell takes from the other. -/
  same_or_parts : indirection.SamePlay ((script.run setting context).play surroundings [])
      ((script.run setting (indirection.settled context)).play surroundings []) ∨
    indirection.Parts setting surroundings script context
  current (isCurrent : indirection.IsCurrent) :
    indirection.SamePlay ((script.run setting context).play surroundings [])
      ((script.run setting (indirection.settled context)).play surroundings [])
  /-- The reference is followed wherever nothing but assertions takes the value. -/
  resolving (resolves : ∀ step, script.Holds step → ∀ store, indirection.In store →
      ¬step.kind.TakesRaw indirection.name store) :
    indirection.SamePlay ((script.run setting context).play surroundings [])
      ((script.run setting (indirection.settled context)).play surroundings [])

/-- A script that leaves a cell and the one it refers to alone, and does not copy the cell, runs as
if the cell were resolved, up to a step that takes the value of the cell as it stands. -/
theorem Script.seen_through (setting : Setting) {script : Script} {context : Context}
    {indirection : Indirection} (holds : indirection.In context.properties)
    (unwritten : ¬script.Writes indirection.name)
    (targetUnwritten : ¬script.Writes indirection.target)
    (notCopied : ∀ step, script.Holds step → ¬step.kind.CopiesFrom indirection.name)
    {surroundings : Surroundings} (indifferent : indirection.Indifferent surroundings) :
    indirection.SeenThrough setting surroundings script context := by
  have uncopied : ∀ step ∈ script.steps, step.NeverCopies indirection :=
    fun step stepMem inner holds => notCopied inner ⟨step, stepMem, holds⟩
  have settles : indirection.SettlesContext context (indirection.settled context) :=
    ⟨holds.settles, rfl⟩
  have mirrors := script.run_mirrors setting unwritten targetUnwritten uncopied ⟨context, [], []⟩
    settles
  have alike : indirection.SamePlay ((script.run setting context).play surroundings [])
        ((script.run setting (indirection.settled context)).play surroundings []) ∨
      indirection.Parts setting surroundings script context := by
    rcases mirrors.play indifferent .nil with same | ⟨history, answer, ⟨step, there, comes, taken⟩,
      alike⟩
    · exact .inl ⟨same.1, same.2⟩
    · exact .inr ⟨history, step, there, answer, comes, taken, alike⟩
  refine ⟨alike, fun isCurrent => alike.resolve_right ?_,
    fun resolves => alike.resolve_right ?_⟩
  · rintro ⟨history, step, there, -, -, taken, -⟩
    exact taken.notCurrent isCurrent
  · rintro ⟨history, step, there, -, comes, taken, -⟩
    exact resolves step comes.holds _ taken.holds taken.takes

/-! ### A reference to a login -/

/-- The property `user` takes its value from the property `login`. -/
def Indirection.login : Indirection where
  name := "user"
  cell := .referring "user" .string "login"
  target := "login"
  refers := rfl
  resolved := .ofString "user" "u1"

def Context.loggedIn : Context :=
  .ofProperties [.ofString "login" "u1", .referring "user" .string "login"]

theorem Context.loggedIn_holds : Indirection.login.In Context.loggedIn.properties :=
  ⟨rfl, rfl⟩

/-- Quiet surroundings answer the same, whatever context a backend is handed. -/
theorem Surroundings.quiet_indifferent (indirection : Indirection) :
    indirection.Indifferent .quiet where
  history _ request := by cases request <;> rfl
  perform {call other} sameCall asked := by
    have sameAction : other.action = call.action := by rw [sameCall.rest]
    change Reply.returned (Except.ok (ActionResponse.passed call.action)) =
      Reply.returned (Except.ok (ActionResponse.passed other.action))
    rw [sameAction]

/-- One backend and one check. -/
def Setting.checking : Setting := ⟨⟨["b"], ["known"], false, false⟩, 0, true⟩

/-- A script that checks the user in each of two iterations, and hands the login to a backend. -/
def Script.checking : Script :=
  ⟨"s", "Checking", 0, [⟨"1", 0, .loop ⟨2, 0, some "i", 0⟩
    [⟨"2", 0, .assertion ⟨false, none, some "known", some "user"⟩⟩,
      ⟨"3", 1, .action ⟨"call", [⟨"m", "b", some "op", none⟩],
        [.referring "as" .string "login"], none⟩⟩]⟩]⟩

theorem Step.holds_mk {id : String} {order : UInt32} {kind : StepKind} {inner : Step} :
    Step.Holds ⟨id, order, kind⟩ inner ↔
      inner = ⟨id, order, kind⟩ ∨ ∃ child ∈ kind.inside, child.Holds inner := by
  constructor
  · rintro (_ | ⟨childMem, holds⟩)
    · exact .inl rfl
    · exact .inr ⟨_, childMem, holds⟩
  · rintro (rfl | ⟨child, childMem, holds⟩)
    · exact .itself
    · exact .deeper childMem holds

/-- The script that checks the user runs as if the user were resolved. -/
theorem Script.checking_seen_through :
    Indirection.login.In Context.loggedIn.properties ∧ ¬Script.checking.Writes "user" ∧
      ¬Script.checking.Writes "login" ∧ Indirection.login.Indifferent .quiet ∧
      Indirection.login.SeenThrough .checking .quiet Script.checking .loggedIn ∧
      Indirection.login.SamePlay ((Script.checking.run .checking .loggedIn).play .quiet [])
        ((Script.checking.run .checking (Indirection.login.settled .loggedIn)).play .quiet []) := by
  have apart (name own : String) (begins : name.toList.head? ≠ some 'c') :
      ¬name = "call" ++ "." ++ own := by
    intro same
    simp [same] at begins
  have unwritten : ¬Script.checking.Writes "user" := by
    simpa [Script.checking, Writes, Step.AnyWrites, Step.Writes, StepKind.Writes, Store.Scoped]
      using fun own => apart "user" own (by decide)
  have targetUnwritten : ¬Script.checking.Writes "login" := by
    simpa [Script.checking, Writes, Step.AnyWrites, Step.Writes, StepKind.Writes, Store.Scoped]
      using fun own => apart "login" own (by decide)
  have notCopied : ∀ step, Script.checking.Holds step → ¬step.kind.CopiesFrom "user" := by
    simp [Script.checking, Holds, Step.holds_mk, StepKind.inside, StepKind.CopiesFrom]
  have indifferent := Surroundings.quiet_indifferent .login
  have seen := Script.seen_through .checking Context.loggedIn_holds unwritten targetUnwritten
    notCopied indifferent
  refine ⟨Context.loggedIn_holds, unwritten, targetUnwritten, indifferent, seen, ?_⟩
  apply seen.resolving
  intro step held store holds takes
  simp only [Script.checking, Holds, Step.holds_mk, StepKind.inside, List.mem_cons,
    List.not_mem_nil, or_false, exists_eq_left, false_and, exists_false, exists_eq_or_imp] at held
  rcases held with rfl | rfl | rfl
  · exact takes
  · rcases takes with ⟨checked, property, isChecked, found, refers⟩
    cases isChecked
    cases found.symm.trans holds.cell
    exact absurd refers (by decide)
  · rcases takes with ⟨property, propertyMem, refers⟩
    cases List.mem_singleton.mp propertyMem
    exact absurd refers (by decide)

/-- A script that greets the user. -/
def Script.greetingUser : Script :=
  ⟨"s", "Greeting", 0, [⟨"1", 0, .textMessage ⟨"Hello", some "user"⟩⟩]⟩

/-- The script that greets the user does not follow the reference: it says hello to nobody, and with
the user resolved it says hello to the one who is logged in. -/
theorem Script.greetingUser_not_seen_through :
    Indirection.login.In Context.loggedIn.properties ∧ ¬Script.greetingUser.Writes "user" ∧
      ¬Script.greetingUser.Writes "login" ∧
      (∀ step, Script.greetingUser.Holds step → ¬step.kind.CopiesFrom "user") ∧
      Indirection.login.Indifferent .quiet ∧
      ((Script.greetingUser.run .checking .loggedIn).play .quiet []).2.result.log.map
          LogEntry.message = ["Hello"] ∧
      ((Script.greetingUser.run .checking (Indirection.login.settled .loggedIn)).play
          .quiet []).2.result.log.map LogEntry.message = ["Hello u1"] := by
  refine ⟨Context.loggedIn_holds, ?_, ?_, ?_, Surroundings.quiet_indifferent .login,
    by decide +kernel, by decide +kernel⟩
  · simp [Script.greetingUser, Writes, Step.AnyWrites, Step.Writes, StepKind.Writes]
  · simp [Script.greetingUser, Writes, Step.AnyWrites, Step.Writes, StepKind.Writes]
  · simp [Script.greetingUser, Holds, Step.holds_mk, StepKind.inside, StepKind.CopiesFrom]

end TestEngine
