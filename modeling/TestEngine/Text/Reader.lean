/-!
# Reading a text from its front

A `Reader` takes something off the front of a text, or fails if the text does not begin with it.
`first <|> second` tries the second reader on the whole text if the first one fails.
-/

namespace TestEngine.Text

abbrev Reader (α : Type) := StateT (List Char) Option α

namespace Reader

/-- The first character, if there is one; nothing is taken. -/
def peek : Reader (Option Char) := return (← get).head?

def next : Reader Char := do
  match ← get with
  | [] => failure
  | c :: rest =>
    set rest
    return c

def char (c : Char) : Reader Unit := do
  if (← next) ≠ c then failure

def oneOf (choices : List Char) : Reader Char := do
  let c ← next
  if c ∈ choices then return c else failure

def word (cs : List Char) : Reader Unit := cs.forM char

/-- Takes the characters with a property, as many as there are. -/
def takeWhile (p : Char → Bool) : Reader (List Char) := do
  let cs ← get
  set (cs.dropWhile p)
  return cs.takeWhile p

/-- Takes the characters with a property; there has to be one. -/
def takeSome (p : Char → Bool) : Reader (List Char) := do
  let taken ← takeWhile p
  if taken = [] then failure else return taken

/-- Takes exactly as many characters with a property as a count says. -/
def takeExactly (p : Char → Bool) (count : Nat) : Reader (List Char) := do
  let cs ← get
  let taken := cs.take count
  if taken.length = count ∧ taken.all p then
    set (cs.drop count)
    return taken
  else failure

def atEnd : Reader Unit := do
  if (← get) ≠ [] then failure

def maybe {α : Type} (reader : Reader α) : Reader (Option α) := some <$> reader <|> pure none

def readAll? {α : Type} (reader : Reader α) (cs : List Char) : Option α :=
  (reader.run cs).bind fun (value, rest) => if rest = [] then some value else none

end Reader

end TestEngine.Text
