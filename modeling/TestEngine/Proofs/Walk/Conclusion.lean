import TestEngine.Proofs.Script.Conclusion
import TestEngine.Proofs.Walk.Unwinding

/-!
# Conclusion of walks

A walk concludes the result of every element it has looked at before it goes on, be the visit
completed or interrupted. Only a crash is not passed on to the results: it leaves the tree as it was
published last, in which the visits that were open are still open.
-/

namespace TestEngine

/-! ### Accounts of runs under way -/

/-- The account of a run under way that shows some results. -/
def Account.showing (shown : List ElementResult) : Account := ⟨shown, false, false⟩

/-- The account of a run that a capability took down when it showed some results. -/
def Account.broken (shown : List ElementResult) : Account := ⟨shown, true, false⟩

/-! ### Results of open visits -/

namespace ElementResult

theorem verdict_finish_isSome (result : ElementResult) (now : Calendar.Instant) :
    (result.finish now).verdict.isSome := by
  rw [finish, rollUp]
  split
  · rename_i isSkipped
    simp_all [ElementResult.isSkipped]
  · split <;> rfl

theorem duration_finish (result : ElementResult) (now : Calendar.Instant) :
    (result.finish now).duration = result.start.map now.millisSince := by
  rw [finish, rollUp_eq]

/-- What is needed of a result for its visit to end with everything complete. -/
structure Concludable (result : ElementResult) : Prop where
  start : result.start.isSome
  scripts : ∀ script ∈ result.scripts, script.Concluded
  results : ∀ child ∈ result.results, child.Concluded

theorem Concludable.congr {before after : ElementResult} (concludable : before.Concludable)
    (start : after.start = before.start) (scripts : after.scripts = before.scripts)
    (results : after.results = before.results) : after.Concludable :=
  ⟨start ▸ concludable.start, scripts ▸ concludable.scripts, results ▸ concludable.results⟩

theorem Concludable.finish {result : ElementResult} (concludable : result.Concludable)
    (now : Calendar.Instant) : (result.finish now).Concluded := by
  refine .intro (result.verdict_finish_isSome now) (by simp) ?_ ?_ ?_
  · simpa [duration_finish] using concludable.start
  · simpa using concludable.scripts
  · simpa using concludable.results

theorem Concludable.close {result : ElementResult} (concludable : result.Concludable)
    (now : Calendar.Instant) : (result.close now).Concluded := by
  refine Concludable.finish ?_ now
  rw [failOpen_eq]
  exact concludable.congr rfl rfl rfl

theorem unended_ofElement (element : Element) (schema : Option Schema) (now : Calendar.Instant) :
    (ofElement element schema now).Unended :=
  ⟨rfl, rfl, rfl, .inl rfl, by simp [ofElement]⟩

namespace Unended

variable {result : ElementResult}

theorem concludable (unended : result.Unended)
    (results : ∀ child ∈ result.results, child.Concluded) : result.Concludable :=
  ⟨unended.start, unended.scripts, results⟩

theorem fail (unended : result.Unended) (message : String) : (result.fail message).Unended :=
  ⟨unended.start, unended.stop, unended.duration, .inr rfl, unended.scripts⟩

theorem addScript (unended : result.Unended) {script : ScriptResult}
    (concluded : script.Concluded) : (result.addScript script).Unended := by
  have scripts : ∀ entered ∈ result.scripts ++ [script], entered.Concluded := by
    simpa [or_imp, forall_and] using ⟨unended.scripts, concluded⟩
  rw [ElementResult.addScript]
  split
  · exact ⟨unended.start, unended.stop, unended.duration, .inr rfl, scripts⟩
  · exact ⟨unended.start, unended.stop, unended.duration, unended.verdict, scripts⟩

end Unended

theorem start_takeManual (result : ElementResult) (input : Option Interaction) :
    (result.takeManual input).1.start = result.start := by
  rw [takeManual]
  split
  · rfl
  · split <;> rfl

end ElementResult

/-! ### Ends of visits -/

/-- What is known when the visit of an element is about to end. -/
inductive ElementResult.Concluding (result : ElementResult) (site : Site) :
    Ending → Account → Prop
  | concludable {ending : Ending} (notCrashed : ending ≠ .crashed)
      (concludable : result.Concludable) :
      result.Concluding site ending (.showing (result.shownAt site))
  | crashed {last : ElementResult} (brokenOff : ElementResult.BrokenOff [last]) :
      result.Concluding site .crashed (.broken (last.shownAt site))

/-- What the visit of an element leaves behind at its site. -/
inductive ElementRun.Accounts (ran : ElementRun) (site : Site) : Account → Prop
  | concluded {result : ElementResult} (notCrashed : ran.ending ≠ .crashed)
      (ranResult : ran.result = some result) (concluded : result.Concluded) :
      ran.Accounts site (.showing (result.shownAt site))
  | unvisited (interrupted : ran.ending = .interrupted) (noResult : ran.result = none) :
      ran.Accounts site (.showing (site.plug site.siblings))
  | crashed {last : ElementResult} (crashed : ran.ending = .crashed)
      (brokenOff : ElementResult.BrokenOff [last]) :
      ran.Accounts site (.broken (last.shownAt site))

theorem closeElement_accounts {site : Site} {element : Element} {result : ElementResult}
    {ending : Ending} {context : Context} {account : Account}
    (concluding : result.Concluding site ending account) :
    (closeElement site element result ending context).Obeys accounting account
      fun ran reached => ran.Accounts site reached := by
  cases concluding with
  | crashed brokenOff => exact .crashed rfl brokenOff
  | concludable notCrashed concludable =>
      cases ending with
      | crashed => exact absurd rfl notCrashed
      | completed =>
          exact ⟨trivial, fun now => ⟨⟨rfl, rfl⟩, fun _ =>
            .concluded Ending.noConfusion rfl (concludable.finish now)⟩⟩
      | interrupted =>
          exact ⟨trivial, fun now => ⟨⟨rfl, rfl⟩, fun _ =>
            .concluded Ending.noConfusion rfl (concludable.close now)⟩⟩

theorem settleElement_accounts {site : Site} {element : Element} {context : Context}
    {judge : ElementResult → ElementResult} {schema : Option Schema}
    (judged : ∀ result : ElementResult, result.Concludable → (judge result).Concludable) :
    (settleElement site element context judge schema).Obeys accounting
      (.showing (site.plug site.siblings)) fun ran reached => ran.Accounts site reached := by
  refine ⟨trivial, fun start => ⟨trivial, fun stop => ⟨⟨rfl, rfl⟩, fun _ =>
    .concluded Ending.noConfusion rfl ((judged _ ?_).finish stop)⟩⟩⟩
  have unended := ElementResult.unended_ofElement element schema start
  exact unended.concludable (List.forall_mem_nil _)

/-! ### Scripts of an element -/

/-- What running the scripts of an element leaves behind. -/
inductive ScriptsRun.Accounts (ran : ScriptsRun) (site : Site) : Account → Prop
  | goesOn (notCrashed : ran.ending ≠ .crashed) (unended : ran.result.Unended)
      (noResults : ran.result.results = []) : ran.Accounts site (.showing (ran.result.shownAt site))
  | crashed {last : ElementResult} (crashed : ran.ending = .crashed)
      (brokenOff : ElementResult.BrokenOff [last]) :
      ran.Accounts site (.broken (last.shownAt site))

theorem runScripts_accounts (setting : Setting) {site : Site} (scripts : List Script)
    {result : ElementResult} {context : Context} (unended : result.Unended)
    (noResults : result.results = []) :
    (runScripts site (scripts.map fun script => script.run setting) result context).Obeys
      accounting (.showing (result.shownAt site)) fun ran reached => ran.Accounts site reached := by
  induction scripts generalizing result context with
  | nil => exact .goesOn Ending.noConfusion unended noResults
  | cons script rest ih =>
      refine Program.obeys_bind.mpr ((script.run_accounts setting context _).imp ?_)
      rintro ⟨scriptResult, ending, after⟩ reached ⟨account, concluded⟩
      have stillNone : (result.addScript scriptResult).results = [] :=
        (ElementResult.continues_addScript result scriptResult).results.trans noResults
      cases ending with
      | crashed =>
          rw [account]
          exact .crashed rfl (.of_inScript unended noResults)
      | interrupted =>
          rw [account]
          have stillUnended := unended.addScript (concluded Ending.noConfusion)
          exact ⟨⟨rfl, rfl⟩, fun _ => .goesOn Ending.noConfusion stillUnended stillNone⟩
      | completed =>
          rw [account]
          have stillUnended := unended.addScript (concluded Ending.noConfusion)
          refine ⟨⟨rfl, rfl⟩, fun _ => ?_⟩
          change Program.Obeys _ (if scriptResult.isFailed then _ else _) _ _
          split
          · exact .goesOn Ending.noConfusion stillUnended stillNone
          · exact ih stillUnended stillNone

theorem runElementScripts_accounts (setting : Setting) {site : Site} (element : Element)
    (schema : Schema) {result : ElementResult} {context : Context} (unended : result.Unended)
    (noResults : result.results = []) :
    (runElementScripts setting site element schema result context).Obeys accounting
      (.showing (result.shownAt site)) fun ran reached => ran.Accounts site reached := by
  rw [runElementScripts]
  split
  · exact .goesOn Ending.noConfusion unended noResults
  · split
    · exact ⟨⟨rfl, rfl⟩, fun _ => .goesOn Ending.noConfusion (unended.fail _) noResults⟩
    · exact runScripts_accounts setting _ unended noResults

theorem ScriptsRun.Accounts.concluding {ran : ScriptsRun} {site : Site} {account : Account}
    (accounts : ran.Accounts site account) : ran.result.Concluding site ran.ending account := by
  cases accounts with
  | goesOn notCrashed unended noResults =>
      exact .concludable notCrashed (unended.concludable (by simp [noResults]))
  | crashed crashed brokenOff =>
      rw [crashed]
      exact .crashed brokenOff

/-! ### Manual elements -/

theorem ElementResult.Concludable.takeManual {result : ElementResult}
    (concludable : result.Concludable) (input : Option Interaction) :
    (result.takeManual input).1.Concludable := by
  rcases result.continues_takeManual input with ⟨continues, scripts⟩
  exact concludable.congr (result.start_takeManual input) scripts continues.results

theorem cancelIf_accounts {cancelled : Bool} {shown : List ElementResult}
    {condition : Unit → Account → Prop} (holds : condition () (.showing shown)) :
    (cancelIf cancelled).Obeys accounting (.showing shown) condition := by
  cases cancelled with
  | false => exact holds
  | true => exact ⟨trivial, fun _ => holds⟩

theorem takeManualInput_accounts {site : Site} {result : ElementResult}
    (concludable : result.Concludable) (input : Option (Option Interaction)) :
    (takeManualInput site result input).Obeys accounting (.showing (result.shownAt site))
      fun after reached => after.1.Concluding site after.2 reached := by
  cases input with
  | none =>
      exact ⟨⟨rfl, rfl⟩, fun _ =>
        .concludable Ending.noConfusion (concludable.congr rfl rfl rfl)⟩
  | some input =>
      exact Program.obeys_bind.mpr ⟨⟨rfl, rfl⟩, fun _ => Program.obeys_bind.mpr
        (cancelIf_accounts (.concludable Ending.noConfusion (concludable.takeManual input)))⟩

theorem awaitManualResult_accounts (setting : Setting) {site : Site} {result : ElementResult}
    (concludable : result.Concludable) :
    (awaitManualResult setting site result).Obeys accounting (.showing (result.shownAt site))
      fun after reached => after.1.Concluding site after.2 reached := by
  rw [awaitManualResult]
  split
  · exact ⟨⟨rfl, rfl⟩, fun _ =>
      .concludable Ending.noConfusion (concludable.congr rfl rfl rfl)⟩
  · refine ⟨trivial, fun start => ?_⟩
    let waiting := { result with manual := some .waiting, start := some start }
    have stillConcludable : waiting.Concludable :=
      ⟨rfl, concludable.scripts, concludable.results⟩
    exact ⟨⟨rfl, rfl⟩, fun _ => ⟨trivial, fun _ => ⟨trivial, fun input =>
      takeManualInput_accounts stillConcludable input⟩⟩⟩

/-! ### Elements -/

/-- What walking a level leaves behind at its site. -/
inductive LevelRun.Accounts (level : LevelRun) (site : Site) : Account → Prop
  | concluded {results : List ElementResult} (notCrashed : level.ending ≠ .crashed)
      (levelResults : level.results = site.siblings ++ results)
      (concluded : ∀ result ∈ results, result.Concluded) :
      level.Accounts site (.showing (site.plug level.results))
  | crashed {results : List ElementResult} (crashed : level.ending = .crashed)
      (brokenOff : ElementResult.BrokenOff results) :
      level.Accounts site (.broken (site.plug (site.siblings ++ results)))

namespace LevelRun.Accounts

variable {level : LevelRun} {site : Site} {account : Account}

/-- A level to which nothing was added is left as it is. -/
theorem unvisited (notCrashed : level.ending ≠ .crashed)
    (noneAdded : level.results = site.siblings) :
    level.Accounts site (.showing (site.plug site.siblings)) := by
  have levelResults : level.results = site.siblings ++ [] := by simp [noneAdded]
  have accounts := concluded notCrashed levelResults (List.forall_mem_nil _)
  rw [noneAdded] at accounts
  exact accounts

/-- What holds of a level behind one of its elements holds of the whole level. -/
theorem cons {result : ElementResult} (concluded : result.Concluded)
    (rest : level.Accounts { site with siblings := site.siblings ++ [result] } account) :
    level.Accounts site account := by
  cases rest with
  | @concluded results notCrashed levelResults restConcluded =>
      have allResults : level.results = site.siblings ++ (result :: results) := by
        simp [levelResults]
      exact .concluded notCrashed allResults (List.forall_mem_cons.mpr ⟨concluded, restConcluded⟩)
  | crashed crashed brokenOff =>
      rw [List.append_assoc]
      exact .crashed crashed (brokenOff.append (by simpa using concluded))

/-- What walking the children leaves behind concludes the visit of their parent, or breaks it off
with them. -/
theorem concluding {result : ElementResult} (accounts : level.Accounts (site.below result) account)
    (unended : result.Unended) (noResults : result.results = []) :
    ElementResult.Concluding { result with results := level.results } site level.ending
      account := by
  have noSiblings : (site.below result).siblings = [] := noResults
  cases accounts with
  | concluded notCrashed levelResults concluded =>
      rw [noSiblings, List.nil_append] at levelResults
      exact .concludable notCrashed ⟨unended.start, unended.scripts, levelResults ▸ concluded⟩
  | @crashed results crashed brokenOff =>
      rw [noSiblings, List.nil_append, crashed]
      have stillUnended : ElementResult.Unended { result with results } :=
        ⟨unended.start, unended.stop, unended.duration, unended.verdict, unended.scripts⟩
      exact .crashed (.of_atChild stillUnended brokenOff)

end LevelRun.Accounts

/-- A way of visiting an element that accounts for its result, wherever the element is visited. -/
def ElementVisit.Accounts (visit : ElementVisit) : Prop :=
  ∀ site : Site, ∀ context,
    (visit site context).Obeys accounting (.showing (site.plug site.siblings))
      fun ran reached => ran.Accounts site reached

theorem walkLevel_accounts {visitors : List Visitor} {elements : List Element} {site : Site}
    {authored : List Element} {context : Context}
    (visits : List.Forall₂ (Visitor.Visits fun _ => ElementVisit.Accounts) visitors elements) :
    (walkLevel site visitors authored context).Obeys accounting
      (.showing (site.plug site.siblings)) fun level reached => level.Accounts site reached := by
  induction visits generalizing site authored context with
  | nil => exact .unvisited Ending.noConfusion rfl
  | cons visit _ ih =>
      refine Program.obeys_bind.mpr ((visit.visited site context).imp ?_)
      rintro ⟨element, ranResult, ending, after⟩ reached accounts
      cases accounts with
      | crashed crashed brokenOff =>
          obtain rfl : ending = .crashed := crashed
          exact .crashed rfl brokenOff
      | unvisited interrupted noResult =>
          obtain rfl : ending = .interrupted := interrupted
          obtain rfl : ranResult = none := noResult
          exact .unvisited Ending.noConfusion (List.append_nil _)
      | @concluded result notCrashed hasResult concluded =>
          obtain rfl : ranResult = some result := hasResult
          cases ending with
          | crashed => exact absurd rfl notCrashed
          | interrupted =>
              exact .concluded Ending.noConfusion rfl (by simpa using concluded)
          | completed => exact ih.imp fun _ _ rest => rest.cons concluded

theorem runElement_accounts (setting : Setting) {site : Site} {element : Element} {schema : Schema}
    {children : List Visitor} {context : Context}
    (visits : List.Forall₂ (Visitor.Visits fun _ => ElementVisit.Accounts) children
      element.children) :
    (runElement setting site element schema children context).Obeys accounting
      (.showing (site.plug site.siblings)) fun ran reached => ran.Accounts site reached := by
  refine ⟨trivial, fun start => ⟨⟨rfl, rfl⟩, fun _ => ?_⟩⟩
  have unended := ElementResult.unended_ofElement element (some schema) start
  change Program.Obeys _ (if element.isManualLeaf then _ else _) _ _
  split
  · have concludable := unended.concludable (List.forall_mem_nil _)
    refine Program.obeys_bind.mpr ((awaitManualResult_accounts setting concludable).imp ?_)
    exact fun _ _ concluding => closeElement_accounts concluding
  · refine Program.obeys_bind.mpr
      ((runElementScripts_accounts setting element schema unended rfl).imp ?_)
    intro ran reached accounts
    split
    · exact closeElement_accounts accounts.concluding
    · rename_i goesOn
      have completed : ran.ending = .completed := by simp_all
      cases accounts with
      | crashed crashed => exact nomatch completed.symm.trans crashed
      | goesOn _ stillUnended noResults =>
          have sorted := forall₂_inOrder (fun _ _ visit => visit.order) visits
          rw [← Site.plug_below]
          refine Program.obeys_bind.mpr ((walkLevel_accounts sorted).imp ?_)
          intro level _ accounts
          exact closeElement_accounts (accounts.concluding stillUnended noResults)

theorem visitElement_accounts (setting : Setting) (element : Element) (children : List Visitor)
    (visits : List.Forall₂ (Visitor.Visits fun _ => ElementVisit.Accounts) children
      element.children) :
    ElementVisit.Accounts (visitElement setting element children) := by
  intro site context
  refine Program.obeys_ask.mpr ⟨trivial, fun goesOn => ?_⟩
  cases goesOn with
  | false => exact .unvisited rfl rfl
  | true =>
      rw [if_neg (by decide)]
      split
      · exact settleElement_accounts fun _ concludable => concludable.congr rfl rfl rfl
      · split
        · exact settleElement_accounts fun _ concludable => concludable.congr rfl rfl rfl
        · split
          · exact settleElement_accounts fun _ concludable => concludable.congr rfl rfl rfl
          · exact runElement_accounts setting visits

/-! ### Configurations -/

/-- What the walk of a configuration leaves behind: it crashes if and only if a capability did. -/
inductive ConfigurationRun.Accounts (ran : ConfigurationRun) : Account → Prop
  | concluded (notCrashed : ran.ending ≠ .crashed)
      (concluded : ∀ result ∈ ran.results, result.Concluded) :
      ran.Accounts (.showing ran.results)
  | crashed {results : List ElementResult} (crashed : ran.ending = .crashed)
      (brokenOff : ElementResult.BrokenOff results) : ran.Accounts (.broken results)

/-- The walk of a configuration accounts for its results, whatever the answers to its requests
are. -/
theorem Configuration.run_accounts (setting : Setting) (configuration : Configuration)
    (context : Context) :
    (configuration.run setting context).Obeys accounting .initial fun ran reached =>
      ran.Accounts reached := by
  refine Program.obeys_ask.mpr ⟨trivial, fun goesOn => ?_⟩
  cases goesOn with
  | false => exact .concluded Ending.noConfusion (List.forall_mem_nil _)
  | true =>
      refine Program.obeys_ask.mpr ⟨trivial, fun _ => ?_⟩
      have sorted := forall₂_inOrder (fun _ _ visit => visit.order)
        (Element.visitors_induction (visitElement_accounts setting) 0 configuration.elements)
      refine Program.obeys_bind.mpr (Program.Obeys.imp (walkLevel_accounts sorted) ?_)
      intro level reached accounts
      cases accounts with
      | concluded notCrashed levelResults concluded =>
          have sameResults : level.results = _ := levelResults
          exact .concluded notCrashed (by rw [sameResults]; exact concluded)
      | crashed crashed brokenOff => exact .crashed crashed brokenOff

/-- A walk crashes if and only if a capability did. -/
theorem ConfigurationRun.Accounts.crashed_iff {ran : ConfigurationRun} {account : Account}
    (accounts : ran.Accounts account) : ran.ending = .crashed ↔ account.crashed = true := by
  cases accounts with
  | concluded notCrashed => exact iff_of_false notCrashed Bool.false_ne_true
  | crashed crashed => exact iff_of_true crashed rfl

/-- The run of a job ends its job with results that are concluded or broken off. -/
theorem Configuration.finishJob_accounts (setting : Setting) (configuration : Configuration)
    (context : Context) :
    (configuration.run setting context >>= fun ran => Program.request (.endJob ran.ending)).Obeys
      accounting .initial fun _ reached => reached.isOver = true := by
  refine Program.obeys_bind.mpr ((configuration.run_accounts setting context).imp ?_)
  intro ran reached accounts
  have crashed_iff := accounts.crashed_iff
  cases accounts with
  | concluded _ concluded => exact ⟨⟨rfl, crashed_iff, concluded⟩, fun _ => rfl⟩
  | crashed _ brokenOff => exact ⟨⟨rfl, crashed_iff, brokenOff⟩, fun _ => rfl⟩

end TestEngine
