import Deadwood.FileTree.Basic
import Deadwood.Wildcard

/-!
# File patterns

A file pattern is a path whose segments may hold wildcards.  The segment `**`
stands for a folder and all folders below it.
-/

namespace Deadwood

/-- A segment of a file pattern. -/
inductive GlobSegment where
  /-- A folder and all folders below it. -/
  | deep
  /-- The names that match a wildcard. -/
  | wild (pattern : Text)
  /-- One name. -/
  | exact (name : Text)
  /-- Nothing more, after a closing slash. -/
  | done
  deriving DecidableEq, Repr

namespace GlobSegment

/-- The most segments of a pattern that can be read. -/
def segmentLimit : Nat := 198

def hasWildcard (name : Text) : Bool :=
  name.any fun c => c = Codepoint.char '*' || c = Codepoint.char '?' || c = Codepoint.char '['

/-- Reads one segment. -/
def ofName (name : Text) : Except Fault GlobSegment :=
  if name = ("**" : Text) then pure .deep
  else if Text.contains name "**" then throw .badValue
  else if hasWildcard name then pure (.wild name)
  else pure (.exact name)

/-- Reads a pattern. -/
def ofText (pattern : Text) : Except Fault (List GlobSegment) := do
  if pattern = [] then throw .badValue
  let path := Path.Parsed.ofText pattern
  if path.slashes ≠ 0 then throw .rootedPattern
  let closed := Text.endsWith pattern "/"
  if path.names = [] then throw (if closed then .unknownOperation else .emptyPattern)
  let segments ← (path.names.take segmentLimit).mapM ofName
  if segmentLimit < path.names.length then throw .tooDeep
  pure (if closed then segments ++ [.done] else segments)

end GlobSegment

namespace FileTree

/-- What segments select from a folder: the names that lead there, after those that led to the folder. -/
def select (tree : FileTree) : List GlobSegment → Location → List Text → List (List Text)
  | [], _, shown => [shown]
  | .done :: _, _, shown => [shown]
  | .deep :: rest, here, shown =>
    ([] :: tree.foldersBelow here).flatMap fun names => select tree rest (here ++ names) (shown ++ names)
  | .wild pattern :: rest, here, shown =>
    (tree.children here).flatMap fun (name, entry) =>
      if (rest = [] || entry = .folder) && Wildcard.accepts pattern name then
        select tree rest (here ++ [name]) (shown ++ [name])
      else []
  | .exact name :: rest, here, shown =>
    match tree.walk here [name] with
    | .ok next =>
      match tree.entry? next with
      | some entry => if rest = [] || entry = .folder then select tree rest next (shown ++ [name]) else []
      | none => []
    | .error _ => []

/-- The location that names lead to from another, whatever stands there. -/
def descend (here : Location) (names : List Text) : Location :=
  names.foldl (fun here name => if name = Path.up then here.dropLast else here ++ [name]) here

/-- How deep a search can be: every segment takes it one level down, and so does every folder below the one where `**`
starts. -/
def depthLimit : Nat := 985

/-- A place that a search asks the file system about. -/
structure Visit where
  /-- The names that lead to the place. -/
  names : List Text
  /-- How deep the search is there. -/
  depth : Nat

/-- Why a search that starts at a path cannot ask about a place.  Nothing is asked about names that no path can have. -/
def Visit.fault? (root : Path.Parsed) (visit : Visit) : Option Fault :=
  if depthLimit < visit.depth then some .tooDeep
  else if (nameFault? (Path.join visit.names)).isNone &&
      (visit.names.any isTooLong || isLong (root.append { slashes := 0, names := visit.names })) then
    some (.system .nameTooLong)
  else none

/-- The places that a search asks about for one segment, where the segments before it have led. -/
def visitsAt (tree : FileTree) (here : Location) (shown : List Text) (depth : Nat) : GlobSegment → List Visit
  | .deep => ([] :: tree.foldersBelow (descend here shown)).map fun names =>
    { names := shown ++ names, depth := depth + names.length }
  | .exact name => [{ names := shown ++ [name], depth }]
  | .wild _ | .done => [{ names := shown, depth }]

/-- The places that the search for segments asks about, segment by segment, and last those that are selected. -/
def visits (tree : FileTree) (here : Location) (segments : List GlobSegment) : List Visit :=
  (segments.zipIdx.flatMap fun (segment, depth) =>
    (tree.select (segments.take depth ++ [.done]) here []).flatMap fun shown =>
      tree.visitsAt here shown depth segment) ++
  (tree.select segments here []).map fun shown => { names := shown, depth := segments.length }

/-- The names of the files that a pattern selects below a folder. -/
def glob (tree : FileTree) (here : Location) (segments : List GlobSegment) : List (List Text) :=
  (tree.select segments here []).filter fun names =>
    match tree.walk here names with
    | .ok location => match tree.entry? location with
      | some (.file _) => true
      | _ => false
    | .error _ => false

end FileTree

end Deadwood
