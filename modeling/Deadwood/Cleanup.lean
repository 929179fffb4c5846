import Deadwood.FileTree.Move
import Deadwood.Log

/-!
# Cleaning up

Unused files are moved into a backup folder, where they keep their paths.  A
file that cannot be moved stays where it is.
-/

namespace Deadwood.Cleanup

def noteSource : Text := "deadref.cleanup"

/-- A text has to be one that a path can have in it. -/
def checkText (text : Text) : Except Fault Unit :=
  match FileTree.nameFault? text with
  | some fault => throw fault
  | none => pure ()

/-- The place of a file in the backup folder, from the root. -/
def backupPath (backupFolder path : Text) : Path.Parsed :=
  (Path.Parsed.ofText backupFolder).append (Path.Parsed.ofText path)

/-- Moves one file below a root into the backup folder: the tree afterwards, and why the file stayed, if it did.  The
folders made for the file are there in either case. -/
def moveFile (tree : FileTree) (root : Path.Parsed) (backupFolder path : Text) :
    Except Fault (FileTree × Option Text) := do
  let source := root.append (Path.Parsed.ofText path)
  let target := root.append (backupPath backupFolder path)
  checkText (backupPath backupFolder path).parent.toText
  match tree.makeFolders (target.names.length + 1) target.parent with
  | (prepared, some (fault, place)) => pure (prepared, some ("Move failed: " ++ fault.message place.toText))
  | (prepared, none) =>
    checkText path
    match prepared.move source target with
    | .ok moved => pure (moved, none)
    | .error reason => pure (prepared, some ("Move failed: " ++ reason))

/-- Moves files one after the other: the tree afterwards, and the files moved. -/
def moveAll (root : Path.Parsed) (backupFolder : Text) : FileTree → List Text → Noted (FileTree × List Text)
  | tree, [] => pure (tree, [])
  | tree, path :: rest => do
    match ← Noted.liftFault (moveFile tree root backupFolder path) with
    | (tree, none) =>
      let (tree, moved) ← moveAll root backupFolder tree rest
      pure (tree, path :: moved)
    | (tree, some reason) =>
      Noted.note [{ level := .warning, source := noteSource, message := "Could not move " ++ path ++ ": " ++ reason }]
      moveAll root backupFolder tree rest

/-- Moves unused files into the backup folder, in order. -/
def clean (tree : FileTree) (root : Path.Parsed) (unused : List Text) (backupFolder : Text) :
    Noted (FileTree × List Text) := do
  let (tree, moved) ← moveAll root backupFolder tree (unused.mergeSort Text.le)
  Noted.note [{
    level := .info, source := noteSource
    message := "Moved " ++ Text.ofNat moved.length ++ " unused files into " ++ backupFolder ++ "/" }]
  pure (tree, moved)

end Deadwood.Cleanup
