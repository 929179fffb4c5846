import Deadwood.FileTree.Glob
import Deadwood.FileTree.Read
import Deadwood.Settings.Basic

/-!
# Discovery of sources

The sources of a project are the files that its patterns select, apart from
installed packages, version control and the backup folder.  They are read
before any reference is resolved, so that all files are known by then.
-/

namespace Deadwood

/-- A file with its text, by its path from the root. -/
structure Source where
  path : Text
  text : Text
  deriving DecidableEq, Repr

/-- The sources of a project. -/
structure Discovery where
  scripts : List Source
  stylesheets : List Source
  /-- All files that were found, in order and each once. -/
  files : List Text
  /-- Files that were found but not read. -/
  skipped : List Text

namespace Discovery

/-- Folders that hold no sources. -/
def skippedFolders : List Text := ["node_modules", ".git"].map Text.ofString

/-- The beginning of the paths in a backup folder. -/
def backupStart (folder : Text) : Text :=
  Text.trimEndBy (· = Path.slash) (Path.Parsed.ofText folder).toText ++ [Path.slash]

/-- Whether a path from the root can be that of a source. -/
def isCandidate (backupFolder path : Text) : Bool :=
  !(Path.Parsed.ofText path).parts.any skippedFolders.contains && !Text.startsWith path (backupStart backupFolder)

/-- The pattern that a value stands for. -/
def patternOf : Value → Except Fault (List GlobSegment)
  | .text pattern => GlobSegment.ofText pattern
  | value => throw (if value.isTruthy then .wrongType else .badValue)

/-- The location of a rooted path. -/
def locationOf (tree : FileTree) (root : Path.Parsed) : Location := ((tree.locate root).toOption).getD []

/-- The paths of the files that a value selects as a pattern. -/
def search (tree : FileTree) (root : Path.Parsed) (value : Value) : Except Fault (List Text) := do
  let pattern ← patternOf value
  match (tree.visits (locationOf tree root) pattern).findSome? (·.fault? root) with
  | some fault => throw fault
  | none => pure ((tree.glob (locationOf tree root) pattern).map Path.join)

/-- The files that patterns select, in order and each once. -/
def select (tree : FileTree) (root : Path.Parsed) (backupFolder : Text) (patterns : Value) :
    Except Fault (List Text) := do
  let found ← (← patterns.items).mapM (search tree root)
  pure (Text.sortedSet (found.flatten.filter (isCandidate backupFolder)))

def noteSource : Text := "deadref.scanning.discovery"

/-- The text of a file, or why it is passed over. -/
def readSource (tree : FileTree) (root : Path.Parsed) (limit : Except Fault Int) (path : Text) :
    Except Fault (Except Text Text) :=
  let place := root.append (Path.Parsed.ofText path)
  match tree.file place with
  | .error fault => pure (throw ("Cannot stat: " ++ fault.message place.toText))
  | .ok file => do
    if (← limit) < (file.bytes.length : Int) then
      pure (throw ("File too large (" ++ Text.ofNat file.bytes.length ++ " bytes)"))
    else
      match tree.readText place with
      | .ok text => pure (pure text)
      | .error (.unreadable _ reason) => pure (throw reason)
      | .error _ => pure (throw [])

/-- The sources at some paths, and the paths passed over. -/
def readAll (tree : FileTree) (root : Path.Parsed) (limit : Except Fault Int) :
    List Text → Noted (List Source × List Text)
  | [] => pure ([], [])
  | path :: rest => do
    match ← Noted.liftFault (readSource tree root limit path) with
    | .ok text =>
      let (sources, skipped) ← readAll tree root limit rest
      pure ({ path, text } :: sources, skipped)
    | .error reason =>
      Noted.note [{ level := .warning, source := noteSource, message := "Skipping " ++ path ++ ": " ++ reason }]
      let (sources, skipped) ← readAll tree root limit rest
      pure (sources, path :: skipped)

/-- Finds and reads the sources below a root. -/
def scan (tree : FileTree) (root : Path.Parsed) (settings : Settings) : Noted Discovery := do
  Noted.note [{ level := .debug, source := noteSource, message := "Initialized SourceScanner for " ++ root.toText }]
  let select := select tree root settings.backupFolder
  let scriptPaths ← Noted.liftFault (select settings.scriptPatterns)
  let (scripts, unreadScripts) ← readAll tree root settings.maxBytes scriptPaths
  let stylePaths ← Noted.liftFault (select settings.stylePatterns)
  let (stylesheets, unreadStyles) ← readAll tree root settings.maxBytes stylePaths
  let files := Text.sortedSet (scriptPaths ++ stylePaths)
  let skipped := unreadScripts ++ unreadStyles
  Noted.note [{
    level := .info, source := noteSource
    message := "Discovered " ++ Text.ofNat files.length ++ " files (" ++ Text.ofNat scripts.length ++ " scripts, " ++
      Text.ofNat stylesheets.length ++ " stylesheets, " ++ Text.ofNat skipped.length ++ " unreadable)" }]
  pure { scripts, stylesheets, files, skipped }

end Discovery

end Deadwood
