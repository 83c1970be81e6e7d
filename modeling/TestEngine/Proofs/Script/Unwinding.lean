import TestEngine.Proofs.Chronicle

/-!
# Unwinding of scripts

An interruption goes through all steps of a script, and of the scripts around it, without being
taken for anything else: a script is aborted if and only if the run was told of an interruption in
it, and what was entered before stays as it was. An aborted script therefore lies at the end of the
one around it, which is aborted too.
-/

namespace TestEngine

/-! ### Results of interrupted scripts -/

/-- A script result that was not cut short, and nor were those embedded in it. -/
inductive ScriptResult.Whole : ScriptResult → Prop
  | intro {result : ScriptResult} (verdict : result.verdict ≠ some .aborted)
      (scripts : ∀ inner, .script inner ∈ result.entries → inner.Whole) : result.Whole

def ScriptEntry.Whole : ScriptEntry → Prop
  | .action _ => True
  | .script result => result.Whole

/-- An aborted script result in which nothing was cut short but the last script of a chain of
embedded ones. -/
inductive ScriptResult.CutShort : ScriptResult → Prop
  | outright {result : ScriptResult} (verdict : result.verdict = some .aborted)
      (isOver : result.stop.isSome) (whole : ∀ entry ∈ result.entries, entry.Whole) :
      result.CutShort
  | within {result inner : ScriptResult} {front : List ScriptEntry}
      (verdict : result.verdict = some .aborted) (isOver : result.stop.isSome)
      (entries : result.entries = front ++ [.script inner])
      (whole : ∀ entry ∈ front, entry.Whole) (cutShort : inner.CutShort) : result.CutShort

theorem ScriptResult.whole_of_entries {result : ScriptResult}
    (verdict : result.verdict ≠ some .aborted) (whole : ∀ entry ∈ result.entries, entry.Whole) :
    result.Whole :=
  .intro verdict fun _ innerMem => whole _ innerMem

theorem ScriptResult.CutShort.verdict {result : ScriptResult} (cutShort : result.CutShort) :
    result.verdict = some .aborted := by
  cases cutShort with
  | outright verdict => exact verdict
  | within verdict => exact verdict

/-- What a visit enters until it stops as given: if it was interrupted, the last script entered may
have been cut short. -/
def ScriptEntry.Entered (added : List ScriptEntry) : Option Abort → Prop
  | some .interrupted =>
      (∀ entry ∈ added, entry.Whole) ∨
        ∃ front inner, added = front ++ [.script inner] ∧ (∀ entry ∈ front, entry.Whole) ∧
          inner.CutShort
  | _ => ∀ entry ∈ added, entry.Whole

namespace ScriptEntry.Entered

variable {added : List ScriptEntry} {stop : Option Abort}

theorem of_whole (whole : ∀ entry ∈ added, entry.Whole) : Entered added stop := by
  rcases stop with _ | _ | _ | error
  · exact whole
  · exact .inl whole
  · exact whole
  · exact whole

theorem nil : Entered [] stop := of_whole (by simp)

theorem append {earlier : List ScriptEntry} (whole : ∀ entry ∈ earlier, entry.Whole)
    (entered : Entered added stop) : Entered (earlier ++ added) stop := by
  have wholeAppend {later : List ScriptEntry} (laterWhole : ∀ entry ∈ later, entry.Whole) :
      ∀ entry ∈ earlier ++ later, entry.Whole := List.forall_mem_append.mpr ⟨whole, laterWhole⟩
  rcases stop with _ | _ | _ | error
  · exact wholeAppend entered
  · rcases entered with addedWhole | ⟨front, inner, rfl, frontWhole, cutShort⟩
    · exact .inl (wholeAppend addedWhole)
    · exact .inr ⟨earlier ++ front, inner, by simp, wholeAppend frontWhole, cutShort⟩
  · exact wholeAppend entered
  · exact wholeAppend entered

end ScriptEntry.Entered

theorem ScriptResult.Concludes.whole {result : ScriptResult} {stop : Option Abort}
    (concludes : result.Concludes stop) (notInterrupted : stop ≠ some .interrupted)
    (entered : ScriptEntry.Entered result.entries stop) : result.Whole := by
  rcases stop with _ | _ | _ | error
  · exact whole_of_entries (by simp [concludes.verdict]) entered
  · exact absurd rfl notInterrupted
  · exact whole_of_entries (by simp [concludes.verdict, Abort.verdict]) entered
  · exact whole_of_entries (by simp [concludes.verdict, Abort.verdict]) entered

theorem ScriptResult.Concludes.cutShort {result : ScriptResult}
    (concludes : result.Concludes (some .interrupted))
    (entered : ScriptEntry.Entered result.entries (some .interrupted)) : result.CutShort := by
  have verdict : result.verdict = some .aborted := concludes.verdict
  have isOver := concludes.isOver (by simp)
  rcases entered with whole | ⟨front, inner, entries, whole, cutShort⟩
  · exact .outright verdict isOver whole
  · exact .within verdict isOver entries whole cutShort

/-! ### The contract -/

/-- What a visit makes of its script and of the chronicle until it stops as given. -/
structure Mark.Unwinds (before : Mark Chronicle) (stop : Option Abort) (after : Mark Chronicle) :
    Prop where
  chronicle : after.state = before.state.stopped stop
  entries : ∃ added, after.entries = before.entries ++ added ∧ ScriptEntry.Entered added stop

namespace Mark.Unwinds

variable {first middle last : Mark Chronicle} {stop : Option Abort}

theorem refl (mark : Mark Chronicle) : mark.Unwinds none mark :=
  ⟨rfl, [], by simp, .nil⟩

theorem trans (before : first.Unwinds none middle) (after : middle.Unwinds stop last) :
    first.Unwinds stop last where
  chronicle := by rw [after.chronicle, before.chronicle]; rfl
  entries := by
    rcases before.entries with ⟨earlier, middleEntries, whole⟩
    rcases after.entries with ⟨added, lastEntries, entered⟩
    exact ⟨earlier ++ added, by simp [lastEntries, middleEntries], entered.append whole⟩

/-- Whatever is asked after a stop leaves what was unwound if it leaves the chronicle. -/
theorem settle (before : first.Unwinds stop middle) (sameState : last.state = middle.state)
    (sameEntries : last.entries = middle.entries) : first.Unwinds stop last :=
  ⟨sameState.trans before.chronicle, sameEntries ▸ before.entries⟩

end Mark.Unwinds

/-- The contract of visits that take an interruption for nothing else. -/
def unwinding : Contract Chronicle where
  protocol := chronicling
  keeps := Mark.Unwinds
  refl := .refl
  trans := .trans
  aborts _ _ := ⟨rfl, [], by simp, .nil⟩
  settles before after sameEntries := before.settle after.chronicle sameEntries
  again := by
    intro first middle last before after sameEntries
    refine before.settle ?_ sameEntries
    have told : middle.state = first.state.tell := before.chronicle
    have toldAgain : last.state = middle.state.tell := after.chronicle
    rw [toldAgain, told, Chronicle.tell_tell]
  allows := chronicling_allows_of_isOfVisit
  answered mark _ ofVisit _ untold _ :=
    ⟨mark.state.after_of_isOfVisit ofVisit untold, [], by simp [Mark.answered], .nil⟩
  crashed mark request ofVisit answer crashes :=
    ⟨mark.state.after_of_isOfVisit ofVisit (request.untold_of_crashes crashes), [],
      by simp [Mark.answered], .nil⟩
  told mark _ _ _ told := ⟨Chronicle.after_of_tells told, [], by simp [Mark.answered], .nil⟩
  passes mark response _ := ⟨rfl, [.action response], rfl, by simp [ScriptEntry.Entered,
    ScriptEntry.Whole]⟩
  fails mark response _ error := ⟨rfl, [.action response], rfl, by simp [ScriptEntry.Entered,
    ScriptEntry.Whole]⟩
  embeds := by
    rintro mark stop result reached ⟨chronicle, added, entries, entered⟩ concludes notCrashed error
    obtain rfl : result.entries = added := entries
    have whole (notInterrupted : stop ≠ some .interrupted) :
        ∀ entry ∈ [ScriptEntry.script result], entry.Whole := by
      simpa [ScriptEntry.Whole] using concludes.whole notInterrupted entered
    rcases stop with _ | _ | _ | other
    · exact ⟨chronicle, [.script result], rfl, whole (by simp)⟩
    · refine ⟨chronicle, [.script result], rfl, .inr ⟨[], result, rfl, by simp, ?_⟩⟩
      exact concludes.cutShort entered
    · exact absurd rfl notCrashed
    · exact ⟨chronicle, [.script result], rfl, whole (by simp)⟩
  crashes := by
    rintro mark inner reached ⟨chronicle, -⟩
    exact ⟨chronicle, [], by simp, .nil⟩

/-! ### Scripts -/

/-- What a run of a script leaves behind: it is aborted if and only if the run was told of an
interruption in it. -/
structure ScriptRun.Unwinds (ran : ScriptRun) (before reached : Chronicle) : Prop where
  chronicle : reached = if ran.ending = .interrupted then before.tell else before
  aborted : ran.ending = .interrupted ↔ ran.result.verdict = some .aborted
  whole : ran.ending = .completed → ran.result.Whole
  cutShort : ran.ending = .interrupted → ran.result.CutShort

theorem ScriptRun.Keeps.unwinds {ran : ScriptRun} {before reached : Chronicle}
    (keeps : ran.Keeps unwinding before reached) : ran.Unwinds before reached := by
  rcases keeps with ⟨stop, ⟨chronicle, added, entries, entered⟩, concludes, hasEnding⟩
  obtain rfl : ran.result.entries = added := entries
  have interrupted_iff : ran.ending = .interrupted ↔ stop = some .interrupted := by
    rw [hasEnding]
    rcases stop with _ | _ | _ | error <;> simp [Abort.ending]
  refine ⟨?chronicle, ?aborted, ?whole, ?cutShort⟩
  case chronicle =>
    split
    · rename_i interrupted
      rw [interrupted_iff.mp interrupted] at chronicle
      exact chronicle
    · rename_i notInterrupted
      exact chronicle.trans (before.stopped_of_ne (mt interrupted_iff.mpr notInterrupted))
  case aborted =>
    rw [interrupted_iff, concludes.verdict]
    rcases stop with _ | _ | _ | error <;> simp [Abort.verdict]
  case whole =>
    intro completed
    refine concludes.whole (fun isInterrupted => ?_) entered
    exact Ending.noConfusion (completed.symm.trans (interrupted_iff.mpr isInterrupted))
  case cutShort =>
    intro interrupted
    obtain rfl := interrupted_iff.mp interrupted
    exact concludes.cutShort entered

/-- Every script unwinds, whatever the answers to its requests are. -/
theorem Script.run_unwinds (setting : Setting) (script : Script) (context : Context)
    (chronicle : Chronicle) :
    (script.run setting context).Obeys chronicling chronicle fun ran reached =>
      ran.Unwinds chronicle reached :=
  (script.run_runs unwinding setting context chronicle).imp fun _ _ keeps => keeps.unwinds

end TestEngine
