/-!
# File names

A file name is taken apart where its format hangs on its extension.
-/

namespace TestEngine.FileName

/-- The part of a path after its last slash, other than one at the end. -/
def lastPart (path : List Char) : List Char :=
  ((path.reverse.dropWhile (· == '/')).takeWhile (· != '/')).reverse

/-- What follows the last point of the last part of a path, unless that point comes first or the
part leads to another directory. -/
def extension? (path : String) : Option String :=
  let name := lastPart path.toList
  if name = ['.', '.'] then none
  else
    match name.reverse.dropWhile (· != '.') with
    | [] | [_] => none
    | _ => some (String.ofList (name.reverse.takeWhile (· != '.')).reverse)

example : extension? "a/b.local.toml" = some "toml" ∧ extension? ".toml" = none ∧
    extension? "c." = some "" ∧ extension? "c" = none := by decide +kernel

end TestEngine.FileName
