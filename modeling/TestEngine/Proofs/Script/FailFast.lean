import TestEngine.Proofs.Exchange
import TestEngine.Proofs.Script.Conclusion

/-!
# Failing fast

The first step that does not go well is the last one that a script enters anything for. A response
or a result is entered deep inside loops, locks and groupings before its failure is raised, so the
invariant is one on what visits enter until they stop: everything before the last entry has passed,
and the last one has passed too, or it is what the visit stopped for. A script that stopped takes
the verdict of that entry, and one that did not stop has passed with all of them.
-/

namespace TestEngine

variable {ν : Type}

/-! ### Shapes of results -/

/-- The verdict of what was entered for a step. -/
def ScriptEntry.verdict : ScriptEntry → Option Verdict
  | .action response =>
    match response.status with
    | .passed => some .passed
    | .failed => some .failed
  | .script result => result.verdict

/-- A result that is over and in which, at every depth of embedding, nothing was entered behind an
entry that has not passed. -/
inductive ScriptResult.FailsFast : ScriptResult → Prop
  | intro {result : ScriptResult}
      (verdict : result.verdict = some .passed ∨ result.verdict = some .failed ∨
        result.verdict = some .aborted)
      (isOver : result.stop.isSome)
      (front : ∀ entry ∈ result.entries.dropLast, entry.verdict = some .passed)
      (failed : ∀ entry ∈ result.entries.getLast?, entry.verdict = some .failed →
        result.verdict = some .failed)
      (aborted : ∀ entry ∈ result.entries.getLast?, entry.verdict = some .aborted →
        result.verdict = some .aborted)
      (passed : result.verdict = some .passed →
        (∀ entry ∈ result.entries, entry.verdict = some .passed) ∧ result.message = none)
      (inside : ∀ inner, .script inner ∈ result.entries → inner.FailsFast) : result.FailsFast

def ScriptEntry.FailsFast : ScriptEntry → Prop
  | .action _ => True
  | .script result => result.FailsFast

/-! ### Entries of visits -/

/-- What is entered by steps until one stops as given: entries that have passed, and behind them at
most one that the step has stopped for. -/
inductive ScriptEntry.UpTo : List ScriptEntry → Option Abort → Prop
  | passing {added : List ScriptEntry} {stop : Option Abort}
      (passed : ∀ entry ∈ added, entry.verdict = some .passed) : UpTo added stop
  | stopping {front : List ScriptEntry} {last : ScriptEntry} {reason : Abort}
      (passed : ∀ entry ∈ front, entry.verdict = some .passed)
      (verdict : last.verdict = reason.verdict) : UpTo (front ++ [last]) (some reason)

namespace ScriptEntry.UpTo

variable {added : List ScriptEntry} {stop : Option Abort}

theorem nil : UpTo [] stop := .passing (by simp)

theorem single {entry : ScriptEntry} {reason : Abort} (verdict : entry.verdict = reason.verdict) :
    UpTo [entry] (some reason) := by
  have upTo : UpTo ([] ++ [entry]) (some reason) := .stopping (by simp) verdict
  exact upTo

theorem of_none (upTo : UpTo added none) : ∀ entry ∈ added, entry.verdict = some .passed := by
  cases upTo with
  | passing passed => exact passed

theorem append {earlier : List ScriptEntry} (before : UpTo earlier none) (after : UpTo added stop) :
    UpTo (earlier ++ added) stop := by
  cases after with
  | passing passed => exact .passing (List.forall_mem_append.mpr ⟨before.of_none, passed⟩)
  | stopping passed verdict =>
      rw [← List.append_assoc]
      exact .stopping (List.forall_mem_append.mpr ⟨before.of_none, passed⟩) verdict

theorem dropLast (upTo : UpTo added stop) :
    ∀ entry ∈ added.dropLast, entry.verdict = some .passed := by
  cases upTo with
  | passing passed => exact fun entry entryMem => passed entry (List.dropLast_subset added entryMem)
  | stopping passed _ => simpa using passed

/-- An entry at the end that has not passed is what the visit stopped for. -/
theorem getLast? (upTo : UpTo added stop) {entry : ScriptEntry} (entryMem : entry ∈ added.getLast?)
    (notPassed : entry.verdict ≠ some .passed) :
    ∃ reason, stop = some reason ∧ entry.verdict = reason.verdict := by
  cases upTo with
  | passing passed => exact absurd (passed entry (List.mem_of_getLast? entryMem)) notPassed
  | stopping _ verdict =>
      obtain rfl : _ = entry := by simpa using entryMem
      exact ⟨_, rfl, verdict⟩

end ScriptEntry.UpTo

/-- The result of a script that was not taken down fails fast if what its steps entered does. -/
theorem ScriptResult.Concludes.failsFast {result : ScriptResult} {stop : Option Abort}
    (concludes : result.Concludes stop) (notCrashed : stop ≠ some .crashed)
    (upTo : ScriptEntry.UpTo result.entries stop)
    (inside : ∀ entry ∈ result.entries, entry.FailsFast) : result.FailsFast := by
  have verdictOf {entry : ScriptEntry} (entryMem : entry ∈ result.entries.getLast?)
      (notPassed : entry.verdict ≠ some .passed) : result.verdict = entry.verdict := by
    rcases upTo.getLast? entryMem notPassed with ⟨reason, rfl, verdict⟩
    exact concludes.verdict.trans verdict.symm
  refine .intro ?verdict (concludes.isOver notCrashed) upTo.dropLast ?failed ?aborted ?passed
    fun inner innerMem => inside _ innerMem
  case verdict =>
    rw [concludes.verdict]
    rcases stop with _ | _ | _ | error
    · exact .inl rfl
    · exact .inr (.inr rfl)
    · exact absurd rfl notCrashed
    · exact .inr (.inl rfl)
  case failed =>
    intro entry entryMem isFailed
    exact (verdictOf entryMem (by simp [isFailed])).trans isFailed
  case aborted =>
    intro entry entryMem isAborted
    exact (verdictOf entryMem (by simp [isAborted])).trans isAborted
  case passed =>
    intro isPassed
    obtain rfl : stop = none := by
      rw [concludes.verdict] at isPassed
      rcases stop with _ | _ | _ | error <;> simp_all [Abort.verdict]
    exact ⟨upTo.of_none, concludes.silent rfl⟩

/-! ### The contract -/

/-- What a visit enters until it stops as given. -/
def Mark.Enters (before : Mark Unit) (stop : Option Abort) (after : Mark Unit) : Prop :=
  ∃ added, after.entries = before.entries ++ added ∧ ScriptEntry.UpTo added stop ∧
    ∀ entry ∈ added, entry.FailsFast

namespace Mark.Enters

variable {first middle last : Mark Unit} {stop : Option Abort}

theorem of_entries_eq (same : last.entries = first.entries) : first.Enters stop last :=
  ⟨[], by simp [same], .nil, by simp⟩

theorem of_entries_append {entry : ScriptEntry} (mark : Mark Unit)
    (upTo : ScriptEntry.UpTo [entry] stop) (failsFast : entry.FailsFast) :
    mark.Enters stop (mark.enter entry) :=
  ⟨[entry], rfl, upTo, by simpa using failsFast⟩

theorem trans (before : first.Enters none middle) (after : middle.Enters stop last) :
    first.Enters stop last := by
  rcases before with ⟨earlier, middleEntries, beforeUpTo, beforeFast⟩
  rcases after with ⟨added, lastEntries, afterUpTo, afterFast⟩
  exact ⟨earlier ++ added, by simp [lastEntries, middleEntries], beforeUpTo.append afterUpTo,
    List.forall_mem_append.mpr ⟨beforeFast, afterFast⟩⟩

theorem settle (before : first.Enters stop middle) (sameEntries : last.entries = middle.entries) :
    first.Enters stop last := by
  rw [Enters, sameEntries]
  exact before

end Mark.Enters

/-- The contract of visits that enter nothing behind what they stop for. -/
def failingFast : Contract Unit where
  protocol := ⟨fun _ _ => True, fun _ _ _ => ()⟩
  keeps := Mark.Enters
  refl _ := .of_entries_eq rfl
  trans := .trans
  aborts _ _ := .of_entries_eq rfl
  settles before _ sameEntries := before.settle sameEntries
  again before _ sameEntries := before.settle sameEntries
  allows _ _ _ := trivial
  answered _ _ _ _ _ _ := .of_entries_eq rfl
  told _ _ _ _ _ := .of_entries_eq rfl
  crashed _ _ _ _ _ := .of_entries_eq rfl
  passes mark _ passed :=
    .of_entries_append mark (.passing (by simp [ScriptEntry.verdict, passed])) trivial
  fails mark _ failed _ :=
    .of_entries_append mark (.single (by simp [ScriptEntry.verdict, failed, Abort.verdict])) trivial
  embeds := by
    rintro mark stop result ⟨⟩ ⟨added, entries, upTo, inside⟩ concludes notCrashed error
    obtain rfl : result.entries = added := entries
    refine .of_entries_append mark ?_ (concludes.failsFast notCrashed upTo inside)
    cases stop with
    | none => exact .passing (by simpa [ScriptEntry.verdict] using concludes.verdict)
    | some reason =>
        have sameVerdict : (reason.around error).verdict = reason.verdict := by
          cases reason <;> rfl
        exact .single (concludes.verdict.trans sameVerdict.symm)
  crashes _ _ _ _ := .of_entries_eq rfl

/-! ### Scripts -/

/-- Whether an exchange is one in which a capability took the run down. -/
def Exchange.Crashes (exchange : Exchange ν) : Prop :=
  exchange.request.crashes exchange.answer = true

instance (exchange : Exchange ν) : Decidable exchange.Crashes :=
  inferInstanceAs (Decidable (exchange.request.crashes exchange.answer = true))

/-- An account tells of a crash only if there was one. -/
theorem Account.crashed_follow {account : Account} {history : List (Exchange ν)}
    (uncrashed : ∀ exchange ∈ history, ¬exchange.Crashes) :
    (accounting.follow account history).crashed = account.crashed := by
  induction history generalizing account with
  | nil => rfl
  | cons exchange rest ih =>
      rw [List.forall_mem_cons] at uncrashed
      refine (ih uncrashed.2).trans ?_
      rcases exchange with ⟨request, answer, note⟩
      have stays : request.crashes answer = false := Bool.eq_false_iff.mpr uncrashed.1
      cases request <;> simp_all [accounting, Account.after]

/-- A run of a script that no capability takes down leaves a result that fails fast, whatever the
capabilities answer otherwise and whatever clients do meanwhile. The run ends as interrupted if and
only if the result is aborted. -/
theorem Script.fails_fast (setting : Setting) (script : Script) (context : Context)
    {history : List (Exchange ν)} {ran : ScriptRun}
    (yields : (script.run setting context).Yields history ran)
    (uncrashed : ∀ exchange ∈ history, ¬exchange.Crashes) :
    ran.result.FailsFast ∧ ran.ending ≠ .crashed ∧
      (ran.ending = .interrupted ↔ ran.result.verdict = some .aborted) := by
  have accounts := (script.run_accounts setting context ⟨[], false, false⟩).holds yields
  have notCrashed : ran.ending ≠ .crashed := by
    intro crashed
    have account := accounts.account
    rw [if_pos crashed] at account
    have told := congrArg Account.crashed account
    rw [Account.crashed_follow uncrashed] at told
    exact nomatch told
  rcases (script.run_runs failingFast setting context ()).holds yields with
    ⟨stop, ⟨added, entries, upTo, inside⟩, concludes, ending⟩
  obtain rfl : ran.result.entries = added := entries
  have stillRuns : stop ≠ some .crashed := by
    rintro rfl
    exact notCrashed ending
  refine ⟨concludes.failsFast stillRuns upTo inside, notCrashed, ?_⟩
  rw [ending, concludes.verdict]
  rcases stop with _ | _ | _ | error <;> simp [Abort.ending, Abort.verdict]

/-- A script that calls a backend three times while it holds a lock, each time from a script of its
own, and that writes a line in between and at the end. -/
def Script.guarded : Script :=
  ⟨"s", "Outer", 1,
    [⟨"k", 1, .lock "db" none
        [⟨"l", 1, .loop ⟨3, 0, none, 0⟩
          [⟨"i", 1, .script ⟨"t", "Inner", 1,
              [⟨"a", 1, .action ⟨"Act", [⟨"log", "log", some "run", none⟩], [], none⟩⟩]⟩⟩,
            ⟨"m", 2, .textMessage ⟨"again", none⟩⟩]⟩]⟩,
      ⟨"z", 2, .textMessage ⟨"done", none⟩⟩]⟩

/-- What the runs have in common that can call one backend. -/
def Setting.logging : Setting := ⟨⟨["log"], [], false, false⟩, 0, false⟩

/-- Answers with which every action fails. -/
def Request.refused : (request : Request) → request.Answer
  | .checkpoint => true
  | .elapsed => 0
  | .now => ⟨0, 0⟩
  | .acquire .. => .granted
  | .perform call => .returned (.ok (.failed call.action "no"))
  | .execute _ => ([], .returned (.ok []))
  | .verify .. => some (.ok ())
  | .awaitInteraction => none
  | .beginJob => none
  | .endJob _ => .finished
  | .sleep _ | .release _ | .moveTo _ | .noteStart | .publish _ | .openInteraction | .cancelRun
  | .awaitResume => ()

/-- The first call fails both scripts, and nothing is entered or written behind it. -/
theorem Script.guarded_fails_fast :
    let told := (Script.guarded.run .logging (.ofProperties [])).tell Request.refused
    (∀ exchange ∈ told.1, ¬exchange.Crashes) ∧
      (told.2.result.FailsFast ∧ told.2.ending ≠ .crashed ∧
        (told.2.ending = .interrupted ↔ told.2.result.verdict = some .aborted)) ∧
      told.2.result.verdict = some .failed ∧
        told.2.result.entries.map ScriptEntry.verdict = [some .failed] ∧
          told.2.result.log = [] := by
  have uncrashed : ∀ exchange ∈
      ((Script.guarded.run .logging (.ofProperties [])).tell Request.refused).1,
      ¬exchange.Crashes := by decide +kernel
  exact ⟨uncrashed,
    Script.fails_fast .logging .guarded _ (Program.yields_tell Request.refused _) uncrashed,
    by decide +kernel, by decide +kernel, by decide +kernel⟩

end TestEngine
