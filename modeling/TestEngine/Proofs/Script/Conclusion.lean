import TestEngine.Proofs.Result.Conclusion
import TestEngine.Proofs.Script.Contract

/-!
# Concluded scripts

A run keeps an account of what it has published and of whether a capability has taken it down. After
a crash it publishes nothing more, and it ends its job as crashed if and only if there was one. By
then its results are concluded, or else broken off. A script keeps to this as follows: it crashes if
and only if a capability did, and otherwise its result is concluded.
-/

namespace TestEngine

/-! ### Accounts -/

/-- What is known of a run from what it has published and from how its calls ended. -/
structure Account where
  /-- The results that were published last. -/
  shown : List ElementResult
  /-- Whether a capability has taken the run down. -/
  crashed : Bool
  /-- Whether the run has ended its job. -/
  isOver : Bool

/-- Results that are complete, or broken off if there was a crash. -/
def ElementResult.Accounted (crashed : Bool) (results : List ElementResult) : Prop :=
  if crashed then BrokenOff results else ∀ result ∈ results, result.Concluded

theorem ElementResult.Accounted.visitAll {σ : Type} {visit : TraceVisit σ} {crashed : Bool}
    {results : List ElementResult} (accounted : Accounted crashed results) (state : σ) :
    Accounted crashed (visitAll visit results state).1 := by
  cases crashed with
  | false => exact concluded_visitAll accounted state
  | true => exact BrokenOff.visitAll accounted state

namespace Account

/-- The account of a run that has asked nothing yet. -/
def initial : Account := ⟨[], false, false⟩

def after (account : Account) : (request : Request) → request.Answer → Account
  | .publish results, _ => { account with shown := results }
  | .endJob _, _ => { account with isOver := true }
  | request, answer => { account with crashed := account.crashed || request.crashes answer }

/-- The account of a visit that stopped as given. -/
def stopped (account : Account) : Option Abort → Account
  | some .crashed => { account with crashed := true }
  | _ => account

theorem stopped_of_ne (account : Account) {stop : Option Abort}
    (notCrashed : stop ≠ some .crashed) : account.stopped stop = account := by
  rcases stop with _ | _ | _ | error
  · rfl
  · rfl
  · exact absurd rfl notCrashed
  · rfl

theorem after_of_isOfVisit (account : Account) {request : Request} (ofVisit : request.isOfVisit)
    (answer : request.Answer) :
    account.after request answer =
      { account with crashed := account.crashed || request.crashes answer } := by
  cases request with
  | publish results => exact nomatch ofVisit
  | endJob ending => exact nomatch ofVisit
  | _ => rfl

theorem after_of_not_crashes (account : Account) {request : Request} (ofVisit : request.isOfVisit)
    {answer : request.Answer} (uncrashed : request.crashes answer = false) :
    account.after request answer = account := by
  rw [account.after_of_isOfVisit ofVisit, uncrashed, Bool.or_false]

theorem after_of_crashes (account : Account) {request : Request} (ofVisit : request.isOfVisit)
    {answer : request.Answer} (crashes : request.crashes answer = true) :
    account.after request answer = { account with crashed := true } := by
  rw [account.after_of_isOfVisit ofVisit, crashes, Bool.or_true]

end Account

/-- The protocol of runs that account for their results. -/
def accounting : Protocol Account where
  allows account request :=
    match request with
    | .publish _ => account.crashed = false ∧ account.isOver = false
    | .endJob ending => account.isOver = false ∧ (ending = .crashed ↔ account.crashed = true) ∧
        ElementResult.Accounted account.crashed account.shown
    | .beginJob => False
    | _ => True
  after := Account.after

theorem accounting_allows_of_isOfVisit (account : Account) {request : Request}
    (ofVisit : request.isOfVisit) : accounting.allows account request := by
  cases request <;> simp_all [Request.isOfVisit, accounting]

/-! ### Scripts -/

/-- What a visit makes of its script and of the account until it stops as given. -/
structure Mark.Accounts (before : Mark Account) (stop : Option Abort) (after : Mark Account) :
    Prop where
  account : after.state = before.state.stopped stop
  entries : ∃ added, after.entries = before.entries ++ added ∧ ∀ entry ∈ added, entry.Concluded

namespace Mark.Accounts

variable {first middle last : Mark Account} {stop : Option Abort}

theorem of_entries_eq (account : last.state = first.state.stopped stop)
    (sameEntries : last.entries = first.entries) : first.Accounts stop last :=
  ⟨account, [], by simp [sameEntries], by simp⟩

theorem trans (before : first.Accounts none middle) (after : middle.Accounts stop last) :
    first.Accounts stop last where
  account := by rw [after.account, before.account]; rfl
  entries := by
    rcases before.entries with ⟨earlier, middleEntries, concluded⟩
    rcases after.entries with ⟨added, lastEntries, addedConcluded⟩
    exact ⟨earlier ++ added, by simp [lastEntries, middleEntries],
      List.forall_mem_append.mpr ⟨concluded, addedConcluded⟩⟩

theorem settle (before : first.Accounts stop middle) (sameState : last.state = middle.state)
    (sameEntries : last.entries = middle.entries) : first.Accounts stop last :=
  ⟨sameState.trans before.account, sameEntries ▸ before.entries⟩

end Mark.Accounts

theorem ScriptResult.Concludes.concluded {result : ScriptResult} {stop : Option Abort}
    (concludes : result.Concludes stop) (notCrashed : stop ≠ some .crashed)
    (entries : ∀ entry ∈ result.entries, entry.Concluded) : result.Concluded := by
  refine concluded_of_entries ?_ (concludes.isOver notCrashed) (concludes.timed notCrashed) entries
  rw [concludes.verdict]
  rcases stop with _ | _ | _ | error
  · rfl
  · rfl
  · exact absurd rfl notCrashed
  · rfl

/-- The contract of visits that account for what they enter. -/
def accountable : Contract Account where
  protocol := accounting
  keeps := Mark.Accounts
  refl _ := .of_entries_eq rfl rfl
  trans := .trans
  aborts _ _ := .of_entries_eq rfl rfl
  settles before after sameEntries := before.settle after.account sameEntries
  again before after sameEntries := before.settle after.account sameEntries
  allows := accounting_allows_of_isOfVisit
  answered mark _ ofVisit _ _ uncrashed :=
    .of_entries_eq (mark.state.after_of_not_crashes ofVisit uncrashed) rfl
  told mark request ofVisit answer told := by
    have uncrashed : request.crashes answer = false := by
      cases crashes : request.crashes answer with
      | false => rfl
      | true => exact absurd told (by simp [request.untold_of_crashes crashes])
    exact .of_entries_eq (mark.state.after_of_not_crashes ofVisit uncrashed) rfl
  crashed mark _ ofVisit _ crashes :=
    .of_entries_eq (mark.state.after_of_crashes ofVisit crashes) rfl
  passes _ response _ := ⟨rfl, [.action response], rfl, by simp [ScriptEntry.Concluded]⟩
  fails _ response _ _ := ⟨rfl, [.action response], rfl, by simp [ScriptEntry.Concluded]⟩
  embeds := by
    rintro mark stop result reached ⟨account, added, entries, concluded⟩ concludes notCrashed error
    obtain rfl : result.entries = added := entries
    refine ⟨?_, [.script result], rfl, ?_⟩
    · have stillRuns : stop.map (Abort.around error) ≠ some .crashed := by
        rcases stop with _ | _ | _ | other <;> simp_all [Abort.around]
      rw [Account.stopped_of_ne _ stillRuns]
      exact account.trans (mark.state.stopped_of_ne notCrashed)
    · simpa [ScriptEntry.Concluded] using concludes.concluded notCrashed concluded
  crashes := by
    rintro mark inner reached ⟨account, -⟩
    exact .of_entries_eq account rfl

/-- What a run of a script leaves behind: it crashes if and only if a capability did, and otherwise
its result is complete. -/
structure ScriptRun.Accounts (ran : ScriptRun) (before reached : Account) : Prop where
  account : reached = if ran.ending = .crashed then { before with crashed := true } else before
  concluded : ran.ending ≠ .crashed → ran.result.Concluded

theorem ScriptRun.Keeps.accounts {ran : ScriptRun} {before reached : Account}
    (keeps : ran.Keeps accountable before reached) : ran.Accounts before reached := by
  rcases keeps with ⟨stop, ⟨account, added, entries, concluded⟩, concludes, hasEnding⟩
  obtain rfl : ran.result.entries = added := entries
  have crashed_iff : ran.ending = .crashed ↔ stop = some .crashed := by
    rw [hasEnding]
    rcases stop with _ | _ | _ | error <;> simp [Abort.ending]
  refine ⟨?_, fun notCrashed => ?_⟩
  · split
    · rename_i crashed
      rw [crashed_iff.mp crashed] at account
      exact account
    · rename_i notCrashed
      exact account.trans (before.stopped_of_ne (mt crashed_iff.mpr notCrashed))
  · exact concludes.concluded (mt crashed_iff.mpr notCrashed) concluded

/-- Every script accounts for its result, whatever the answers to its requests are. -/
theorem Script.run_accounts (setting : Setting) (script : Script) (context : Context)
    (account : Account) :
    (script.run setting context).Obeys accounting account fun ran reached =>
      ran.Accounts account reached :=
  (script.run_runs accountable setting context account).imp fun _ _ keeps => keeps.accounts

end TestEngine
