import TestEngine.NameMap
import TestEngine.Result.Basic

/-!
# The traces of a result

The traces of a result are visited in one order: the scripts of an element before its children, and
a script's entries as they were appended, those of an embedded script in its place.

The content of a deferred trace lies in a cache, under the id of the trace, until the run is over.
It is then moved into the first deferred trace of that id.
-/

namespace TestEngine

variable {σ : Type}

/-- A visit of one trace, with a state that goes from each trace to the next. -/
abbrev TraceVisit (σ : Type) := Trace → σ → Trace × σ

def visitTraces (visit : TraceVisit σ) : List Trace → σ → List Trace × σ
  | [], state => ([], state)
  | trace :: rest, state =>
    let (trace, state) := visit trace state
    let (rest, state) := visitTraces visit rest state
    (trace :: rest, state)

mutual

def ScriptResult.visitTraces (visit : TraceVisit σ) : ScriptResult → σ → ScriptResult × σ
  | ⟨scriptId, name, verdict, start, stop, duration, message, log, entries⟩, state =>
    let (entries, state) := ScriptEntry.visitAll visit entries state
    (⟨scriptId, name, verdict, start, stop, duration, message, log, entries⟩, state)

def ScriptEntry.visitTraces (visit : TraceVisit σ) : ScriptEntry → σ → ScriptEntry × σ
  | .action response, state =>
    let (traces, state) := TestEngine.visitTraces visit response.traces state
    (.action { response with traces }, state)
  | .script result, state =>
    let (result, state) := result.visitTraces visit state
    (.script result, state)

def ScriptEntry.visitAll (visit : TraceVisit σ) : List ScriptEntry → σ → List ScriptEntry × σ
  | [], state => ([], state)
  | entry :: rest, state =>
    let (entry, state) := entry.visitTraces visit state
    let (rest, state) := ScriptEntry.visitAll visit rest state
    (entry :: rest, state)

end

def ScriptResult.visitAll (visit : TraceVisit σ) : List ScriptResult → σ → List ScriptResult × σ
  | [], state => ([], state)
  | script :: rest, state =>
    let (script, state) := script.visitTraces visit state
    let (rest, state) := ScriptResult.visitAll visit rest state
    (script :: rest, state)

mutual

def ElementResult.visitTraces (visit : TraceVisit σ) : ElementResult → σ → ElementResult × σ
  | ⟨elementId, name, level, schemaId, verdict, start, stop, duration, message, results, scripts,
      manual⟩, state =>
    let (scripts, state) := ScriptResult.visitAll visit scripts state
    let (results, state) := ElementResult.visitAll visit results state
    (⟨elementId, name, level, schemaId, verdict, start, stop, duration, message, results, scripts,
      manual⟩, state)

def ElementResult.visitAll (visit : TraceVisit σ) :
    List ElementResult → σ → List ElementResult × σ
  | [], state => ([], state)
  | element :: rest, state =>
    let (element, state) := element.visitTraces visit state
    let (rest, state) := ElementResult.visitAll visit rest state
    (element :: rest, state)

end

def ConfigurationResult.visitTraces (visit : TraceVisit σ) (result : ConfigurationResult)
    (state : σ) : ConfigurationResult × σ :=
  let (results, state) := ElementResult.visitAll visit result.results state
  ({ result with results }, state)

/-! ### The cache of contents -/

abbrev TraceCache := NameMap Content

/-- Moves the content of a deferred trace out of the cache, if it is there. -/
def Trace.attach (trace : Trace) (cache : TraceCache) : Trace × TraceCache :=
  if trace.deferred then
    match cache.get? trace.id with
    | some content =>
      ({ trace with content := some content, deferred := false }, cache.erase trace.id)
    | none => (trace, cache)
  else (trace, cache)

def ConfigurationResult.attachTraces (result : ConfigurationResult) (cache : TraceCache) :
    ConfigurationResult × TraceCache :=
  result.visitTraces Trace.attach cache

end TestEngine
