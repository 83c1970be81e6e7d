import TestEngine.Settings.Variable
import TestEngine.Text.Blank

/-!
# Files of environment variables

A file of variables holds lines `NAME=value`, with `export` in front if the author likes, blank
lines and comments. A value can be quoted; within double quotes and outside of quotes a backslash
escapes a character and a dollar sign stands for the value of a variable. Reading ends at the first
line that is none of this; the variables before it count.
-/

namespace TestEngine.Settings

open Text

namespace VariableFile

/-! ### Lines

A line break within quotes does not end a line. -/

/-- Where a scan for the end of a line stands. -/
inductive Scan where
  | plain
  | blank
  | escape
  | single
  | singleEscape
  | double
  | doubleEscape
  deriving DecidableEq

/-- How a scan goes on; a number sign after a blank begins a comment and ends it. -/
def Scan.step (c : Char) : Scan → Option Scan
  | .plain =>
    if isBlank c ∧ c ≠ '\n' ∧ c ≠ '\r' then some .blank
    else if c = '\\' then some .escape
    else if c = '"' then some .double
    else if c = '\'' then some .single
    else some .plain
  | .blank =>
    if c = '#' then none
    else if c = '\\' then some .escape
    else if c = '"' then some .double
    else if c = '\'' then some .single
    else some .plain
  | .escape => some .plain
  | .single => some (if c = '\\' then .singleEscape else if c = '\'' then .plain else .single)
  | .singleEscape => some .single
  | .double => some (if c = '\\' then .doubleEscape else if c = '"' then .plain else .double)
  | .doubleEscape => some .double

/-- The text before a comment, and where the scan of a text ends if there is no comment. -/
def Scan.over : Scan → List Char → List Char × Option Scan
  | scan, [] => ([], some scan)
  | scan, c :: rest =>
    match scan.step c with
    | none => ([], none)
    | some next =>
      let (before, last) := Scan.over next rest
      (c :: before, last)

def brokenLines : List Char → List (List Char)
  | [] => []
  | '\n' :: rest => ['\n'] :: brokenLines rest
  | c :: rest =>
    match brokenLines rest with
    | [] => [[c]]
    | line :: lines => (c :: line) :: lines

def unbroken (line : List Char) : List Char :=
  match line.reverse with
  | '\n' :: '\r' :: rest => rest.reverse
  | '\n' :: rest => rest.reverse
  | _ => line

/-- Joins lines whose quotes are open to the lines that follow. `found` is the beginning of the
line in the making and `scan` the place where the scan of it stands. A line that does not end is
`none`. -/
def joinLines (found : List Char) (scan : Scan) : List (List Char) → List (Option (List Char))
  | [] => if scan = .plain then [] else [none]
  | line :: rest =>
    let whole := found ++ line
    if (trimLeft whole).head? = some '#' then some [] :: joinLines [] .plain rest
    else
      match scan.over line with
      | (before, none) => some (found ++ before) :: joinLines [] .plain rest
      | (_, some .plain) => some (unbroken whole) :: joinLines [] .plain rest
      | (_, some unfinished) => joinLines whole unfinished rest

/-! ### Values -/

/-- How far the name of a variable has been read within a value. -/
inductive Naming where
  | none
  | bare
  | braced
  deriving DecidableEq

/-- The value in the making: its characters in reverse, and the name of a variable, in reverse. -/
structure Value where
  found : List Char
  single : Bool
  double : Bool
  escaped : Bool
  /-- Whether only blanks and a comment may follow. -/
  ended : Bool
  naming : Naming
  name : List Char
  comment : Bool

def Value.start : Value := ⟨[], false, false, false, false, .none, [], false⟩

def Value.substitute (known : String → String) (value : Value) : Value :=
  let text := known (String.ofList value.name.reverse)
  { value with found := text.toList.reverse ++ value.found, name := [] }

/-- The letters and digits of the name of a variable within a value; beyond ASCII every character
counts as one. -/
def isNamePart (c : Char) : Bool := c.isAlphanum || 0x80 ≤ c.toNat

def Value.add (known : String → String) (value : Value) (c : Char) : Option Value :=
  let push (value : Value) : Value := { value with found := c :: value.found }
  if value.comment then some value
  else if value.ended then
    if c = ' ' ∨ c = '\t' then some value
    else if c = '#' then some { value with comment := true }
    else none
  else if value.escaped then
    let value := { value with escaped := false }
    if c ∈ ['\\', '\'', '"', '$', ' '] then some (push value)
    else if c = 'n' then some { value with found := '\n' :: value.found }
    else none
  else if value.single then
    if c = '\'' then some { value with single := false } else some (push value)
  else if value.naming ≠ .none then
    if isNamePart c then some { value with name := c :: value.name }
    else if value.naming = .braced then
      if c = '}' then some { value.substitute known with naming := .none }
      else some { value with name := c :: value.name }
    else if c = '{' ∧ value.name = [] then some { value with naming := .braced }
    else
      let value := value.substitute known
      if c = '$' then some value else some (push { value with naming := .none })
  else if c = '$' then some { value with naming := .bare }
  else if value.double then
    if c = '"' then some { value with double := false }
    else if c = '\\' then some { value with escaped := true }
    else some (push value)
  else if c = '\'' then some { value with single := true }
  else if c = '"' then some { value with double := true }
  else if c = '\\' then some { value with escaped := true }
  else if c = ' ' ∨ c = '\t' then some { value with ended := true }
  else some (push value)

/-- Reads a value; `known` gives the values of variables. -/
def readValue? (known : String → String) (cs : List Char) : Option String := do
  let value ← cs.foldlM (Value.add known) Value.start
  if value.naming = .braced ∨ value.single ∨ value.double then none
  else some (String.ofList (value.substitute known).found.reverse)

/-! ### Entries -/

def entryName : Reader String := do
  let first ← Reader.next
  if !(first.isAlpha || first == '_') then failure
  let rest ← Reader.takeWhile fun c => c.isAlphanum || c == '_' || c == '.'
  let _ ← Reader.takeWhile isBlank
  return String.ofList (first :: rest)

def entryStart : Reader String := do
  let name ← entryName
  if name = "export" then
    match ← Reader.maybe (Reader.char '=') with
    | some _ => return name
    | none =>
      let name ← entryName
      Reader.char '='
      return name
  else
    Reader.char '='
    return name

def readLine? (known : String → String) (line : List Char) : Option (Option (String × String)) :=
  match trim line with
  | [] => some none
  | '#' :: _ => some none
  | cs => do
    let (name, rest) ← entryStart.run cs
    match trimLeft rest with
    | [] => return some (name, "")
    | '#' :: _ => return some (name, "")
    | cs => return some (name, ← readValue? known cs)

/-- Adds the entries of lines to variables, up to the first line that is none. Variables that are
there keep their values; within values `entries` are known too, the latest first. -/
def addLines (environment : Variables) (entries : Variables) :
    List (Option (List Char)) → Variables
  | [] => environment
  | none :: _ => environment
  | some line :: rest =>
    let known (name : String) : String :=
      ((environment.lookup name) <|> (entries.lookup name)).getD ""
    match readLine? known line with
    | none => environment
    | some none => addLines environment entries rest
    | some (some (name, value)) =>
      let changed :=
        if (environment.lookup name).isSome then environment else environment ++ [(name, value)]
      addLines changed ((name, value) :: entries) rest

end VariableFile

/-- Variables together with those of a file; a variable that is there keeps its value. -/
def Variables.withFile (environment : Variables) (text : String) : Variables :=
  let cs := match text.toList with
    | '\uFEFF' :: rest => rest
    | cs => cs
  VariableFile.addLines environment []
    (VariableFile.joinLines [] .plain (VariableFile.brokenLines cs))

end TestEngine.Settings
