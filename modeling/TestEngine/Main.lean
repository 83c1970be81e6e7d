import TestEngine.Launcher.Basic

/-!
# The command line

Reads the files and the environment that the launcher may look at, and writes what it leaves behind.
-/

namespace TestEngine.Launcher

def readText? (name : String) : IO (Option String) := do
  try return some (← IO.FS.readFile name) catch _ => return none

def filesOf (invocation : Invocation) : List String :=
  let file := match invocation.command with
    | .run file _ | .validate file => file
  [file, Settings.variableFile] ++
    Settings.candidates (invocation.settings.getD Settings.standardFile)

def readVariables : IO Settings.Variables := do
  let text := (← readText? "/proc/self/environ").getD ""
  return (text.splitOn "\x00").filterMap fun entry =>
    match entry.splitOn "=" with
    | name :: value :: rest => some (name, "=".intercalate (value :: rest))
    | _ => none

/-- The calendar's time in milliseconds: that of the last start of the system, and what has passed
since. -/
def readTime : IO Int := do
  let lines := ((← readText? "/proc/stat").getD "").splitOn "\n"
  let start := lines.findSome? fun line =>
    match line.splitOn " " with
    | ["btime", seconds] => seconds.toNat?
    | _ => none
  return ((start.getD 0 * 1000 + (← IO.monoMsNow) : Nat) : Int)

def readSurroundings (invocation : Invocation) : IO Surroundings := do
  let texts ← (filesOf invocation).mapM fun name => return (name, ← readText? name)
  return {
    files := fun name => (texts.lookup name).join
    environment := ← readVariables
    time := ← readTime
    id := jobId (← IO.rand 0 (UInt64.size * UInt64.size - 1)) }

def stepLimit : Nat := 1000000000000

/-- Waits for something that does not happen. -/
partial def waitForever : IO UInt32 := do
  IO.sleep 60000
  waitForever

/-- Writes what the launcher leaves behind, once the job has taken its time. -/
def Outcome.write (outcome : Outcome) : IO UInt32 := do
  IO.sleep (UInt32.ofNat outcome.elapsed)
  outcome.complaints.forM fun line => IO.eprintln line
  outcome.output.forM fun line => IO.println line
  return outcome.code

end TestEngine.Launcher

open TestEngine.Launcher in
def main (arguments : List String) : IO UInt32 := do
  match Invocation.ofArguments? arguments with
  | none => Outcome.misuse.write
  | some invocation =>
    match launch stepLimit (← readSurroundings invocation) invocation with
    | some outcome => outcome.write
    | none => waitForever
