/-!
# White space

The white space that a literal may have around it is the Unicode property `White_Space`: 25
characters, of which six are control characters and one, the no-break space, is in Latin-1.
-/

namespace TestEngine.Text

def isBlank (c : Char) : Bool :=
  let n := c.toNat
  (0x09 ≤ n && n ≤ 0x0D) || n == 0x20 || n == 0x85 || n == 0xA0 || n == 0x1680 ||
    (0x2000 ≤ n && n ≤ 0x200A) || n == 0x2028 || n == 0x2029 || n == 0x202F || n == 0x205F ||
    n == 0x3000

def trimLeft (cs : List Char) : List Char := cs.dropWhile isBlank

def trim (cs : List Char) : List Char := (trimLeft (trimLeft cs).reverse).reverse

/-- A text that neither starts nor ends with a blank is its own trimmed form. -/
theorem trim_eq_self {cs : List Char} (first : ∀ c ∈ cs.head?, isBlank c = false)
    (last : ∀ c ∈ cs.getLast?, isBlank c = false) : trim cs = cs := by
  have drop_nothing : ∀ ds : List Char, (∀ c ∈ ds.head?, isBlank c = false) → trimLeft ds = ds := by
    intro ds h
    cases ds with
    | nil => rfl
    | cons d rest => simp [trimLeft, h d (by simp)]
  unfold trim
  rw [drop_nothing cs first, drop_nothing cs.reverse (by simpa using last), List.reverse_reverse]

end TestEngine.Text
