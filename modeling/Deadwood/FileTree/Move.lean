import Deadwood.FileTree.Basic

/-!
# Moving files

A move gives an entry a new location.  A file at the new location is replaced,
and a folder there receives what is moved.
-/

namespace Deadwood.FileTree

/-- The tree in which everything at or below one location is at or below another. -/
def relocate (tree : FileTree) (source target : Location) : FileTree :=
  { tree with entries := tree.entries.map fun (place, entry) =>
      if source.isPrefixOf place then (target ++ place.drop source.length, entry) else (place, entry) }

/-- Renames an entry: a file may replace a file, a folder only an empty folder. -/
def rename (tree : FileTree) (source target : Path.Parsed) : Except SystemFault FileTree := do
  let old ← tree.locate source
  let new ← tree.locate target
  match tree.entry? old, tree.entry? new with
  | none, _ => throw .notFound
  | some moved, there =>
    if old = new then pure tree
    else if old.isPrefixOf new then throw .invalid
    else match moved, there with
      | _, none => pure (tree.relocate old new)
      | .file _, some (.file _) => pure ((tree.erase new).relocate old new)
      | .folder, some .folder =>
        if tree.children new = [] then pure ((tree.erase new).relocate old new) else throw .alreadyExists
      | .file _, some .folder => throw .isFolder
      | .folder, some (.file _) => throw .notFolder

/-- What is said when an entry cannot be renamed on its way to a target. -/
def refusal (tree : FileTree) (source target final : Path.Parsed) : Text :=
  if tree.isFolder source then
    let inside := match tree.locate source, tree.locate target with
      | .ok old, .ok new => old.isPrefixOf new
      | _, _ => false
    if inside then "Cannot move a directory '" ++ source.toText ++ "' into itself '" ++ target.toText ++ "'."
    else SystemFault.alreadyExists.message final.toText
  else
    match tree.content source, tree.locate final with
    | .error fault, _ => fault.message source.toText
    | .ok _, .error fault => fault.message final.toText
    | .ok _, .ok _ => SystemFault.notFound.message final.toText

/-- Moves an entry, into the target if that is a folder.  The text of a refusal is returned. -/
def move (tree : FileTree) (source target : Path.Parsed) : Except Text FileTree := do
  let same := match tree.locate source, tree.locate target with
    | .ok old, .ok new => old = new && (tree.entry? old).isSome
    | _, _ => false
  if same && (source.name = Path.up || target.name = Path.up) then
    throw (SystemFault.busy.message source.toText ++ " -> " ++ Text.quoted target.toText)
  let into := tree.isFolder target && !same
  let final := if into then target.append { slashes := 0, names := [source.name] } else target
  if into && tree.existsAt final then
    throw ("Destination path '" ++ final.toText ++ "' already exists")
  match tree.rename source final with
  | .ok moved => pure moved
  | .error _ => throw (tree.refusal source target final)

end Deadwood.FileTree
