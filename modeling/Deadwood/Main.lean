import Deadwood.Command.Run

/-!
# The command line

The command reads the folders that its arguments speak of into a file tree, runs
on that tree, and carries the changes out.
-/

open Deadwood

namespace Deadwood.Main

/-- The path of a location, if its names can be written. -/
def pathOf (location : Location) : Option String :=
  (location.mapM Text.toString?).map fun names => "/" ++ String.intercalate "/" names

/-- The location of a rooted path. -/
def locationOf (path : String) : Location := (Path.Parsed.ofText path).names

/-- Folders that hold no sources and are not looked into. -/
def isSkipped (name : String) : Bool := Discovery.skippedFolders.contains (Text.ofString name)

/-- The file at a path.  Of a file that may not be read only the size is known. -/
def readFile (path : String) : IO FileContent := do
  try
    let content ← IO.FS.readBinFile path
    pure { bytes := content.toList }
  catch _ =>
    let metadata ← (← IO.FS.realPath path).metadata
    pure { bytes := List.replicate metadata.byteSize.toNat 0, isReadable := false }

/-- What is at a path and, if it is a folder and `deep` asks for it, below it.  Nothing may be there. -/
partial def readBelow (deep : Bool) (path : String) (location : Location) : IO (List (Location × Entry)) := do
  try
    let place ← IO.FS.realPath path
    if ← place.isDir then
      let inside ← if deep then place.readDir else pure #[]
      let below ← inside.toList.mapM fun child => do
        let location := location ++ [Text.ofString child.fileName]
        if isSkipped child.fileName then pure [(location, Entry.folder)]
        else readBelow deep (path ++ "/" ++ child.fileName) location
      pure ((location, .folder) :: below.flatten)
    else
      pure [(location, .file (← readFile path))]
  catch _ => pure []

/-- What is at a location, and on the way to it. -/
def readAt (deep : Bool) (location : Location) : IO (List (Location × Entry)) := do
  let above := ((List.range location.length).map location.take).filter (· ≠ [])
  let places := (above.map fun place => (false, place)) ++ [(deep, location)]
  let entries ← places.mapM fun (deep, place) =>
    match pathOf place with
    | some path => readBelow deep path place
    | none => pure []
  pure entries.flatten

/-- Adds entries to a tree that does not have them yet. -/
def addEntries (tree : FileTree) (entries : List (Location × Entry)) : FileTree :=
  entries.foldl (fun tree (location, entry) =>
    if (tree.entry? location).isSome then tree else tree.put location entry) tree

/-- The tree that arguments speak of. -/
def readTree (here : Location) (args : List Text) : IO FileTree := do
  let start : FileTree := { here, entries := [] }
  let given := (Command.readArguments (args.length + 1) {} args).getD {}
  let locate (path : Text) : Location := (start.resolve (Path.Parsed.ofText path)).names
  let root := locate (given.others.headD Path.here)
  let files := [Command.Slot.config, .output, .logFile].filterMap given.value?
  let parts ← (here :: files.map locate).mapM (readAt false)
  pure (addEntries (addEntries start (← readAt true root)) parts.flatten)

/-- Puts a file at a location.  One that may not be read has been moved there from one of some locations; those that are
left are returned. -/
def writeFile (location : Location) (content : FileContent) (gone : List (Location × Entry)) :
    IO (List (Location × Entry)) := do
  match pathOf location, gone.find? (·.2 = .file content) with
  | none, _ => pure gone
  | some path, origin =>
    if content.isReadable then
      IO.FS.writeBinFile path (ByteArray.mk content.bytes.toArray)
      pure gone
    else
      if let some old := origin.bind (pathOf ·.1) then IO.FS.rename old path
      pure (gone.filter fun (place, _) => some place ≠ origin.map (·.1))

/-- Carries the changes from one tree to another out: new folders first, files that are gone last. -/
def writeChanges (before after : FileTree) : IO Unit := do
  let new := after.entries.filter fun (location, entry) => before.entry? location ≠ some entry
  let mut gone := before.entries.filter fun (location, _) => after.entry? location = none
  let (folders, files) := new.partition fun (_, entry) => entry = .folder
  for (location, _) in folders do
    if let some path := pathOf location then IO.FS.createDirAll path
  for (location, entry) in files do
    if let .file content := entry then gone ← writeFile location content gone
  for (location, _) in gone do
    if let some path := pathOf location then IO.FS.removeFile path

/-- The variables that settings may come from. -/
def readEnvironment : IO (List (Text × Text)) := do
  let names := Setting.all.filterMap fun setting => (Settings.variableName setting).toString?
  let values ← names.mapM fun name => do
    pure ((← IO.getEnv name).map fun value => (Text.ofString name, Text.ofString value))
  pure (values.filterMap id)

end Deadwood.Main

def main (args : List String) : IO UInt32 := do
  let args := args.map Text.ofString
  let here ← IO.currentDir
  let tree ← Main.readTree (Main.locationOf here.toString) args
  let outcome := Command.run tree (← Main.readEnvironment) args
  Main.writeChanges tree outcome.tree
  let out ← IO.getStdout
  out.putStr ((Text.display outcome.output).toString?.getD "")
  out.flush
  if outcome.exitCode = 2 then IO.eprintln "deadref: the arguments are refused"
  if outcome.fault.isSome then IO.eprintln "deadref: a value or a file cannot be used"
  pure outcome.exitCode.toUInt32
