import Deadwood.FileTree.Basic

/-!
# Reading text files

The text of a file in some encoding, with line feeds at the ends of its lines.
-/

namespace Deadwood.FileTree

/-- The text of the file at a path; every refusal names the path. -/
def readText (tree : FileTree) (path : Path.Parsed) (scheme : Encoding.Scheme := .utf8)
    (policy : Encoding.Policy := .replace) : Except Failure Text :=
  match tree.content path with
  | .error fault => throw (.unreadable path.toText ("OS error: " ++ fault.message path.toText))
  | .ok bytes =>
    match Encoding.decode scheme policy bytes with
    | .error error => throw (.unreadable path.toText ("Encoding error: " ++ error.message))
    | .ok text => pure (Encoding.unifyLines text)

end Deadwood.FileTree
