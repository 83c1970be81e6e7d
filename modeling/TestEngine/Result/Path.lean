import TestEngine.Result.Basic

/-!
# Paths into a result

An element result is addressed by the places of its ancestors and of itself among their siblings.
The empty path is the root. Since results are only ever appended, a path keeps its meaning.
-/

namespace TestEngine

abbrev ResultPath := List Nat

namespace ElementResult

def nodeAt? (results : List ElementResult) : ResultPath → Option ElementResult
  | [] => none
  | [place] => results[place]?
  | place :: rest => results[place]?.bind fun node => nodeAt? node.results rest

def childrenAt? (results : List ElementResult) : ResultPath → Option (List ElementResult)
  | [] => some results
  | place :: rest => results[place]?.bind fun node => childrenAt? node.results rest

def modifyAt? (results : List ElementResult) (change : ElementResult → ElementResult) :
    ResultPath → Option (List ElementResult)
  | [] => none
  | [place] => results[place]?.map fun node => results.set place (change node)
  | place :: rest =>
    results[place]?.bind fun node =>
      (modifyAt? node.results change rest).map fun below =>
        results.set place { node with results := below }

/-- Appends a node below the one that a path leads to, and finds the path of the new one. -/
def appendAt? (results : List ElementResult) (added : ElementResult) :
    ResultPath → Option (List ElementResult × ResultPath)
  | [] => some (results ++ [added], [results.length])
  | place :: rest =>
    results[place]?.bind fun node =>
      (appendAt? node.results added rest).map fun (below, path) =>
        (results.set place { node with results := below }, place :: path)

end ElementResult

namespace ConfigurationResult

/-- The node that a path leads to; the root is none. -/
def nodeAt? (result : ConfigurationResult) (path : ResultPath) : Option ElementResult :=
  ElementResult.nodeAt? result.results path

def childrenAt? (result : ConfigurationResult) (path : ResultPath) : Option (List ElementResult) :=
  ElementResult.childrenAt? result.results path

def modifyAt? (result : ConfigurationResult) (path : ResultPath)
    (change : ElementResult → ElementResult) : Option ConfigurationResult :=
  (ElementResult.modifyAt? result.results change path).map fun results => { result with results }

/-- Appends a node below the one that a path leads to, and finds the path of the new one. -/
def appendAt? (result : ConfigurationResult) (parent : ResultPath) (added : ElementResult) :
    Option (ConfigurationResult × ResultPath) :=
  (ElementResult.appendAt? result.results added parent).map fun (results, path) =>
    ({ result with results }, path)

end ConfigurationResult

end TestEngine
