import TestEngine.Machine.Wait
import TestEngine.Proofs.Session.Life

/-!
# Where contents go

At the end of a job the contents of deferred traces are moved out of the cache. The traces of a
result are read here in the order in which they stand in it, the scripts of an element before its
children, and the visit of a tree turns out to be the visit of this list. What the visit does to a
list of traces is told by the list alone: of the deferred traces with one id, the first one finds
the content in the cache, and the others find that it is gone.
-/

namespace TestEngine

variable {σ : Type} {visit : TraceVisit σ}

/-! ### Lists of traces -/

def Trace.filled (trace : Trace) (content : Content) : Trace :=
  { trace with content := some content, deferred := false }

/-- Whether a trace waits for a content with this id. -/
def Trace.Awaits (id : String) (trace : Trace) : Prop := trace.deferred ∧ trace.id = id

instance (id : String) (trace : Trace) : Decidable (trace.Awaits id) :=
  inferInstanceAs (Decidable (_ ∧ _))

/-- Whether a trace stands at a place of a list and is the first one there to wait for its
content. -/
structure Trace.IsFirst (traces : List Trace) (place : Nat) (trace : Trace) : Prop where
  found : traces[place]? = some trace
  deferred : trace.deferred
  first : ∀ other ∈ traces.take place, ¬other.Awaits trace.id

/-- How contents have been moved out of a cache into traces. -/
structure TraceCache.Moves (cache left : TraceCache) (traces moved : List Trace) : Prop where
  length : moved.length = traces.length
  /-- An entry is removed if a trace waits for it, and only then. -/
  removed {id : String} {content : Content} (cached : cache.get? id = some content) :
    left.get? id = none ↔ ∃ trace ∈ traces, trace.Awaits id
  kept {id : String} (notRemoved : left.get? id ≠ none) : left.get? id = cache.get? id
  /-- The content of a removed entry goes to the first trace that waits for it, and to no other. -/
  given {id : String} {content : Content} (cached : cache.get? id = some content)
    (isRemoved : left.get? id = none) :
    ∃ place trace, Trace.IsFirst traces place trace ∧ trace.id = id ∧
      moved[place]? = some (trace.filled content) ∧
      ∀ other, other ≠ place → ∀ same, traces[other]? = some same → same.id = id →
        moved[other]? = some same
  /-- Any other trace stays as it is. -/
  stays {place : Nat} {trace : Trace} (found : traces[place]? = some trace)
    (notGiven : ¬(Trace.IsFirst traces place trace ∧ (cache.get? trace.id).isSome)) :
    moved[place]? = some trace

namespace Trace

variable {traces : List Trace} {place other : Nat} {trace same : Trace}

theorem IsFirst.eq_place (isFirst : IsFirst traces place trace)
    (otherFirst : IsFirst traces other same) (sameId : same.id = trace.id) : other = place := by
  have notBefore {place other : Nat} {trace same : Trace} (isFirst : IsFirst traces place trace)
      (otherFirst : IsFirst traces other same) (sameId : same.id = trace.id) : place ≤ other := by
    refine Nat.le_of_not_lt fun earlier => ?_
    have earlierMem : same ∈ traces.take place :=
      List.mem_of_getElem? ((List.getElem?_take_of_lt earlier).trans otherFirst.found)
    exact isFirst.first same earlierMem ⟨otherFirst.deferred, sameId⟩
  exact Nat.le_antisymm (notBefore otherFirst isFirst sameId.symm)
    (notBefore isFirst otherFirst sameId)

/-- If any trace waits for a content, there is a first one. -/
theorem exists_isFirst {id : String} (awaited : ∃ trace ∈ traces, trace.Awaits id) :
    ∃ place trace, IsFirst traces place trace ∧ trace.id = id := by
  induction traces with
  | nil => simp at awaited
  | cons first rest ih =>
      by_cases firstAwaits : first.Awaits id
      · exact ⟨0, first, ⟨rfl, firstAwaits.1, by simp⟩, firstAwaits.2⟩
      · have laterAwaited : ∃ trace ∈ rest, trace.Awaits id := by
          rcases awaited with ⟨trace, traceMem, awaits⟩
          rcases List.mem_cons.mp traceMem with rfl | traceMem
          · exact absurd awaits firstAwaits
          · exact ⟨trace, traceMem, awaits⟩
        rcases ih laterAwaited with ⟨place, trace, isFirst, rfl⟩
        refine ⟨place + 1, trace, ⟨isFirst.found, isFirst.deferred, ?_⟩, rfl⟩
        simpa using ⟨firstAwaits, isFirst.first⟩

/-! ### The visit of a list -/

theorem get?_attach (trace : Trace) (cache : TraceCache) (id : String) :
    (trace.attach cache).2.get? id = if trace.Awaits id then none else cache.get? id := by
  rw [attach]
  split
  · rename_i deferred
    split
    · rw [NameMap.get?_erase]
      simp only [Awaits, deferred, true_and, eq_comm]
    · rename_i missing
      split
      · rename_i awaits
        exact awaits.2 ▸ missing
      · rfl
  · rename_i notDeferred
    rw [if_neg fun awaits => notDeferred awaits.1]

theorem get?_visitTraces_attach (traces : List Trace) (cache : TraceCache) (id : String) :
    (visitTraces attach traces cache).2.get? id =
      if ∃ trace ∈ traces, trace.Awaits id then none else cache.get? id := by
  induction traces generalizing cache with
  | nil => simp [visitTraces]
  | cons trace rest ih =>
      rw [visitTraces]
      refine (ih (trace.attach cache).2).trans ?_
      rw [get?_attach]
      simp only [List.mem_cons, exists_eq_or_imp]
      by_cases restAwaits : ∃ trace ∈ rest, trace.Awaits id
      · rw [if_pos restAwaits, if_pos (.inr restAwaits)]
      · simp only [restAwaits, or_false, if_false]

/-- Each trace of a list is visited with the cache that the traces before it have left. -/
theorem getElem?_visitTraces (visit : TraceVisit σ) (traces : List Trace) (state : σ)
    (place : Nat) :
    (visitTraces visit traces state).1[place]? =
      traces[place]?.map fun trace =>
        (visit trace (visitTraces visit (traces.take place) state).2).1 := by
  induction traces generalizing state place with
  | nil => rfl
  | cons trace rest ih =>
      cases place with
      | zero => rfl
      | succ place => exact ih (visit trace state).2 place

theorem length_visitTraces (visit : TraceVisit σ) (traces : List Trace) (state : σ) :
    (visitTraces visit traces state).1.length = traces.length := by
  induction traces generalizing state with
  | nil => rfl
  | cons trace rest ih => exact congrArg (· + 1) (ih (visit trace state).2)

theorem visitTraces_append (visit : TraceVisit σ) (traces others : List Trace) (state : σ) :
    visitTraces visit (traces ++ others) state =
      ((visitTraces visit traces state).1 ++
          (visitTraces visit others (visitTraces visit traces state).2).1,
        (visitTraces visit others (visitTraces visit traces state).2).2) := by
  induction traces generalizing state with
  | nil => rfl
  | cons trace rest ih => simp only [List.cons_append, visitTraces, ih]

theorem attach_eq_filled {cache : TraceCache} {content : Content} (deferred : trace.deferred)
    (cached : cache.get? trace.id = some content) :
    (trace.attach cache).1 = trace.filled content := by
  rw [attach, if_pos deferred, cached]
  rfl

theorem attach_eq_self {cache : TraceCache}
    (stays : trace.deferred → cache.get? trace.id = none) : (trace.attach cache).1 = trace := by
  rw [attach]
  split
  · rename_i deferred
    rw [stays deferred]
  · rfl

end Trace

/-- What the visit of a list does: each trace that finds a content is the first to wait for it. -/
theorem TraceCache.moves_visitTraces (cache : TraceCache) (traces : List Trace) :
    cache.Moves (visitTraces Trace.attach traces cache).2 traces
      (visitTraces Trace.attach traces cache).1 := by
  have stays {place : Nat} {trace : Trace} (found : traces[place]? = some trace)
      (notGiven : ¬(Trace.IsFirst traces place trace ∧ (cache.get? trace.id).isSome)) :
      (visitTraces Trace.attach traces cache).1[place]? = some trace := by
    rw [Trace.getElem?_visitTraces, found, Option.map_some]
    refine congrArg some (Trace.attach_eq_self fun deferred => ?_)
    rw [Trace.get?_visitTraces_attach]
    split
    · rfl
    · rename_i noneBefore
      refine Option.not_isSome_iff_eq_none.mp fun cached => notGiven ⟨⟨found, deferred, ?_⟩, cached⟩
      exact fun other otherMem awaits => noneBefore ⟨other, otherMem, awaits⟩
  refine ⟨Trace.length_visitTraces _ _ _, ?_, ?_, ?_, stays⟩
  · intro id content cached
    rw [Trace.get?_visitTraces_attach, cached]
    split <;> simp_all
  · intro id notRemoved
    rw [Trace.get?_visitTraces_attach] at notRemoved ⊢
    split at notRemoved
    · exact absurd rfl notRemoved
    · rename_i notAwaited
      rw [if_neg notAwaited]
  · intro id content cached isRemoved
    have awaited : ∃ trace ∈ traces, trace.Awaits id := by
      rw [Trace.get?_visitTraces_attach, cached] at isRemoved
      split at isRemoved
      · assumption
      · exact nomatch isRemoved
    rcases Trace.exists_isFirst awaited with ⟨place, trace, isFirst, rfl⟩
    refine ⟨place, trace, isFirst, rfl, ?_, ?_⟩
    · rw [Trace.getElem?_visitTraces, isFirst.found, Option.map_some]
      refine congrArg some (Trace.attach_eq_filled isFirst.deferred ?_)
      rw [Trace.get?_visitTraces_attach, if_neg, cached]
      exact fun ⟨other, otherMem, awaits⟩ => isFirst.first other otherMem awaits
    · intro other notPlace same found sameId
      exact stays found fun ⟨otherFirst, _⟩ => notPlace (isFirst.eq_place otherFirst sameId)

/-! ### Trees of results -/

mutual

def ScriptResult.traces : ScriptResult → List Trace
  | ⟨_, _, _, _, _, _, _, _, entries⟩ => ScriptEntry.allTraces entries

def ScriptEntry.traces : ScriptEntry → List Trace
  | .action response => response.traces
  | .script result => result.traces

def ScriptEntry.allTraces : List ScriptEntry → List Trace
  | [] => []
  | entry :: rest => entry.traces ++ ScriptEntry.allTraces rest

end

mutual

/-- The traces of an element: those of its scripts, and then those of its children. -/
def ElementResult.traces : ElementResult → List Trace
  | ⟨_, _, _, _, _, _, _, _, _, results, scripts, _⟩ =>
    scripts.flatMap ScriptResult.traces ++ ElementResult.allTraces results

def ElementResult.allTraces : List ElementResult → List Trace
  | [] => []
  | result :: rest => result.traces ++ ElementResult.allTraces rest

end

/-- What a trace is apart from its content. -/
def Trace.stripped (trace : Trace) : Trace := { trace with deferred := false, content := none }

mutual

/-- What a result is apart from the contents of its traces. -/
def ScriptResult.stripped : ScriptResult → ScriptResult
  | ⟨scriptId, name, verdict, start, stop, duration, message, log, entries⟩ =>
    ⟨scriptId, name, verdict, start, stop, duration, message, log, ScriptEntry.allStripped entries⟩

def ScriptEntry.stripped : ScriptEntry → ScriptEntry
  | .action response => .action { response with traces := response.traces.map Trace.stripped }
  | .script result => .script result.stripped

def ScriptEntry.allStripped : List ScriptEntry → List ScriptEntry
  | [] => []
  | entry :: rest => entry.stripped :: ScriptEntry.allStripped rest

end

mutual

def ElementResult.stripped : ElementResult → ElementResult
  | ⟨elementId, name, level, schemaId, verdict, start, stop, duration, message, results, scripts,
      manual⟩ =>
    ⟨elementId, name, level, schemaId, verdict, start, stop, duration, message,
      ElementResult.allStripped results, scripts.map ScriptResult.stripped, manual⟩

def ElementResult.allStripped : List ElementResult → List ElementResult
  | [] => []
  | result :: rest => result.stripped :: ElementResult.allStripped rest

end

/-- How contents have been moved out of a cache into the traces of results, which are otherwise the
same. -/
structure ElementResult.Moves (before : List ElementResult) (cache : TraceCache)
    (after : List ElementResult) (left : TraceCache) : Prop where
  stripped : allStripped after = allStripped before
  traces : cache.Moves left (allTraces before) (allTraces after)

/-! ### The visit of a tree -/

mutual

theorem ScriptResult.traces_visitTraces (visit : TraceVisit σ) :
    (result : ScriptResult) → (state : σ) →
      ((result.visitTraces visit state).1.traces, (result.visitTraces visit state).2) =
        TestEngine.visitTraces visit result.traces state
  | ⟨_, _, _, _, _, _, _, _, entries⟩, state => ScriptEntry.allTraces_visitAll visit entries state

theorem ScriptEntry.traces_visitTraces (visit : TraceVisit σ) :
    (entry : ScriptEntry) → (state : σ) →
      ((entry.visitTraces visit state).1.traces, (entry.visitTraces visit state).2) =
        TestEngine.visitTraces visit entry.traces state
  | .action _, _ => rfl
  | .script result, state => result.traces_visitTraces visit state

theorem ScriptEntry.allTraces_visitAll (visit : TraceVisit σ) :
    (entries : List ScriptEntry) → (state : σ) →
      (ScriptEntry.allTraces (ScriptEntry.visitAll visit entries state).1,
          (ScriptEntry.visitAll visit entries state).2) =
        TestEngine.visitTraces visit (ScriptEntry.allTraces entries) state
  | [], _ => rfl
  | entry :: rest, state => by
      have first := entry.traces_visitTraces visit state
      have others := ScriptEntry.allTraces_visitAll visit rest (entry.visitTraces visit state).2
      rw [ScriptEntry.allTraces, Trace.visitTraces_append, ← first, ← others]
      rfl

end

theorem ScriptResult.traces_visitAll (visit : TraceVisit σ) (scripts : List ScriptResult)
    (state : σ) :
    ((visitAll visit scripts state).1.flatMap traces, (visitAll visit scripts state).2) =
      TestEngine.visitTraces visit (scripts.flatMap traces) state := by
  induction scripts generalizing state with
  | nil => rfl
  | cons script rest ih =>
      have first := script.traces_visitTraces visit state
      have others := ih (script.visitTraces visit state).2
      rw [List.flatMap_cons, Trace.visitTraces_append, ← first, ← others]
      rfl

mutual

theorem ElementResult.traces_visitTraces (visit : TraceVisit σ) :
    (result : ElementResult) → (state : σ) →
      ((result.visitTraces visit state).1.traces, (result.visitTraces visit state).2) =
        TestEngine.visitTraces visit result.traces state
  | ⟨_, _, _, _, _, _, _, _, _, results, scripts, _⟩, state => by
      have first := ScriptResult.traces_visitAll visit scripts state
      have others := ElementResult.allTraces_visitAll visit results
        (ScriptResult.visitAll visit scripts state).2
      rw [ElementResult.traces, Trace.visitTraces_append, ← first, ← others]
      rfl

theorem ElementResult.allTraces_visitAll (visit : TraceVisit σ) :
    (results : List ElementResult) → (state : σ) →
      (ElementResult.allTraces (ElementResult.visitAll visit results state).1,
          (ElementResult.visitAll visit results state).2) =
        TestEngine.visitTraces visit (ElementResult.allTraces results) state
  | [], _ => rfl
  | result :: rest, state => by
      have first := result.traces_visitTraces visit state
      have others := ElementResult.allTraces_visitAll visit rest (result.visitTraces visit state).2
      rw [ElementResult.allTraces, Trace.visitTraces_append, ← first, ← others]
      rfl

end

/-- A visit that changes nothing about a trace but its content. -/
def TraceVisit.KeepsStripped (visit : TraceVisit σ) : Prop :=
  ∀ (trace : Trace) (state : σ), (visit trace state).1.stripped = trace.stripped

theorem TraceVisit.KeepsStripped.attach : TraceVisit.KeepsStripped Trace.attach := by
  intro trace cache
  rw [Trace.attach]
  split
  · split <;> rfl
  · rfl

theorem Trace.map_stripped_visitTraces (keeps : TraceVisit.KeepsStripped visit)
    (traces : List Trace) (state : σ) :
    (visitTraces visit traces state).1.map stripped = traces.map stripped := by
  induction traces generalizing state with
  | nil => rfl
  | cons trace rest ih => exact List.cons_eq_cons.mpr ⟨keeps trace state, ih (visit trace state).2⟩

mutual

theorem ScriptResult.stripped_visitTraces (keeps : TraceVisit.KeepsStripped visit) :
    (result : ScriptResult) → (state : σ) →
      (result.visitTraces visit state).1.stripped = result.stripped
  | ⟨_, _, _, _, _, _, _, _, entries⟩, state => by
      rw [ScriptResult.stripped, ← ScriptEntry.allStripped_visitAll keeps entries state]
      rfl

theorem ScriptEntry.stripped_visitTraces (keeps : TraceVisit.KeepsStripped visit) :
    (entry : ScriptEntry) → (state : σ) →
      (entry.visitTraces visit state).1.stripped = entry.stripped
  | .action response, state => by
      rw [ScriptEntry.stripped, ← Trace.map_stripped_visitTraces keeps response.traces state]
      rfl
  | .script result, state => by
      rw [ScriptEntry.stripped, ← result.stripped_visitTraces keeps state]
      rfl

theorem ScriptEntry.allStripped_visitAll (keeps : TraceVisit.KeepsStripped visit) :
    (entries : List ScriptEntry) → (state : σ) →
      ScriptEntry.allStripped (ScriptEntry.visitAll visit entries state).1 =
        ScriptEntry.allStripped entries
  | [], _ => rfl
  | entry :: rest, state => by
      rw [ScriptEntry.allStripped, ← entry.stripped_visitTraces keeps state,
        ← ScriptEntry.allStripped_visitAll keeps rest (entry.visitTraces visit state).2]
      rfl

end

theorem ScriptResult.map_stripped_visitAll (keeps : TraceVisit.KeepsStripped visit)
    (scripts : List ScriptResult) (state : σ) :
    (visitAll visit scripts state).1.map stripped = scripts.map stripped := by
  induction scripts generalizing state with
  | nil => rfl
  | cons script rest ih =>
      exact List.cons_eq_cons.mpr ⟨script.stripped_visitTraces keeps state, ih _⟩

mutual

theorem ElementResult.stripped_visitTraces (keeps : TraceVisit.KeepsStripped visit) :
    (result : ElementResult) → (state : σ) →
      (result.visitTraces visit state).1.stripped = result.stripped
  | ⟨_, _, _, _, _, _, _, _, _, results, scripts, _⟩, state => by
      have children := ElementResult.allStripped_visitAll keeps results
        (ScriptResult.visitAll visit scripts state).2
      rw [ElementResult.stripped, ← ScriptResult.map_stripped_visitAll keeps scripts state,
        ← children]
      rfl

theorem ElementResult.allStripped_visitAll (keeps : TraceVisit.KeepsStripped visit) :
    (results : List ElementResult) → (state : σ) →
      ElementResult.allStripped (ElementResult.visitAll visit results state).1 =
        ElementResult.allStripped results
  | [], _ => rfl
  | result :: rest, state => by
      rw [ElementResult.allStripped, ← result.stripped_visitTraces keeps state,
        ← ElementResult.allStripped_visitAll keeps rest (result.visitTraces visit state).2]
      rfl

end

theorem ElementResult.moves_visitAll (results : List ElementResult) (cache : TraceCache) :
    Moves results cache (visitAll Trace.attach results cache).1
      (visitAll Trace.attach results cache).2 where
  stripped := allStripped_visitAll .attach results cache
  traces := by
    have visited := Prod.mk.inj (allTraces_visitAll Trace.attach results cache)
    rw [visited.1, visited.2]
    exact cache.moves_visitTraces (allTraces results)

/-! ### The end of a job -/

namespace Session

variable {session : Session}

/-- What the end of a job does with contents: they are moved, and the listeners are given the result
that has them. -/
theorem finalize_moves (notFinalized : session.finalized = false) (status : JobStatus)
    (now : Calendar.Instant) (cache : TraceCache) :
    let ended := session.finalize status now cache
    ElementResult.Moves session.result.results cache ended.1.result.results ended.2 ∧
      ended.1.notices = session.notices ++
        session.listeners.map fun listener => ⟨listener, status, ended.1.result⟩ := by
  have sameResults : (session.finalResult status now).results = session.result.results := by
    rw [finalResult, ConfigurationResult.finish_eq]
  rw [finalize, notFinalized]
  refine ⟨?_, rfl⟩
  rw [← sameResults]
  exact ElementResult.moves_visitAll _ cache

variable {ω : Type}

/-- The run of a job that is under way ends with its contents in their places, and whoever listens
is told of the result as it is then. -/
theorem contents_moved_at_end (registry : Registry ω) (world : World ω) (ending : Ending)
    (notFinalized : session.finalized = false) :
    let ended := (Request.endJob ending).carryOut registry session world
    ElementResult.Moves session.result.results world.cache ended.session.result.results
        ended.world.cache ∧
      ∃ status, ended.outcome = .answered status ∧
        ended.session.notices = session.notices ++
          session.listeners.map fun listener => ⟨listener, status, ended.session.result⟩ := by
  have onward := (session.statusAfter_spec ending).1
  have moves := finalize_moves (onward.finalized.trans notFinalized)
    (session.statusAfter ending).2 world.now world.cache
  rw [onward.results, onward.notices, onward.listeners] at moves
  exact ⟨moves.1, _, rfl, moves.2⟩

/-- An action has been carried out twice, the second time in an embedded script, and a child of the
element has the traces of another one. -/
def recordedTwice : Session :=
  let trace (id : String) (deferred : Bool) : Trace := ⟨id, .file, "", deferred, none⟩
  let shot : ScriptEntry := .action { ActionResponse.passed "" with traces := [trace "shot" true] }
  let others : ScriptEntry :=
    .action { ActionResponse.passed "" with traces := [trace "log" false, trace "video" true] }
  let script (entries : List ScriptEntry) : ScriptResult :=
    ⟨"", "", none, none, none, none, none, [], entries⟩
  let element (results : List ElementResult) (scripts : List ScriptResult) : ElementResult :=
    ⟨"", "", 0, none, none, none, none, none, none, results, scripts, none⟩
  let child := element [] [script [others]]
  { ofResult true ⟨"", "", .running, none, none, none, none,
      [element [child] [script [shot, .script (script [shot])]]]⟩ with listeners := ["client"] }

/-- The content goes to the first of the two traces, and what nobody waits for stays. -/
theorem contents_moved_of_recordedTwice :
    let cache : TraceCache := ⟨[("shot", [1]), ("log", [2]), ("video", [3])]⟩
    let world : World Unit := .initial 0 cache ()
    let ended := (Request.endJob .completed).carryOut .empty recordedTwice world
    recordedTwice.finalized = false ∧
      ElementResult.Moves recordedTwice.result.results cache ended.session.result.results
        ended.world.cache ∧
      (ElementResult.allTraces ended.session.result.results).map Trace.content =
        [some [1], none, none, some [3]] ∧
      ended.world.cache.entries = [("log", [2])] ∧
      ended.session.notices.map Notice.result = [ended.session.result] := by
  intro cache world ended
  have notFinalized : recordedTwice.finalized = false := rfl
  have moves := contents_moved_at_end .empty world .completed notFinalized
  exact ⟨notFinalized, moves.1, by decide +kernel, by decide +kernel, rfl⟩

end Session

end TestEngine
