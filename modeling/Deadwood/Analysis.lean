import Deadwood.Discovery
import Deadwood.Cleanup
import Deadwood.Manifest
import Deadwood.Package
import Deadwood.Report
import Deadwood.Usage
import Deadwood.Resolution.Rules
import Deadwood.Script.Extract
import Deadwood.Settings.Load
import Deadwood.Stylesheet

/-!
# Analysis of a project

A run finds the sources of a project, takes the references out of them, gathers
what they resolve to, and reports the files that nothing refers to.  A script
that cannot be parsed contributes no references.
-/

namespace Deadwood

namespace Resolution

/-- A resolution as it is noted. -/
def toText : Resolution → Text
  | projectFile path => "ProjectFile(path=" ++ Text.quoted path ++ ")"
  | package name => "Dependency(name=" ++ Text.quoted name ++ ")"
  | unresolved text reason =>
    "Unresolved(original_text=" ++ Text.quoted text ++ ", reason=" ++ Text.quoted reason ++ ")"

end Resolution

namespace Analysis

/-- What the references of some sources resolve to, and the sources that could not be parsed. -/
structure Findings where
  resolutions : List Resolution
  failed : List Text

/-- The record of a resolution, if the rules were reached. -/
def explanation (project : Project) (reference : Reference) : Option Record :=
  match project.explain reference.origin reference.text reference.site with
  | (rule, some importer, resolution) => some {
      level := .debug, source := "deadref.resolution.resolver"
      message := importer ++ ": " ++ Text.quoted reference.text ++ " -> " ++ resolution.toText ++ " [" ++ rule.name ++
        "]" }
  | _ => none

/-- The project that references are resolved in; without an alias that is a text no rule can be tried. -/
structure Resolver where
  project : Project
  hasAlias : Bool

/-- Resolves references. -/
def resolveAll (resolver : Resolver) (references : List Reference) : Noted (List Resolution) := do
  let records := references.filterMap (explanation resolver.project)
  if !resolver.hasAlias && !records.isEmpty then throw (.fault .wrongType)
  Noted.note records
  pure (references.map resolver.project.resolve)

/-- Notes how many references a source has. -/
def noteCount (source : Text) (path : Text) (references : List Reference) : Noted Unit :=
  Noted.note [{
    level := .debug, source
    message := path ++ ": " ++ Text.ofNat references.length ++ " specifiers" }]

/-- What the references of scripts resolve to. -/
def scanScripts (resolver : Resolver) : List Source → Noted Findings
  | [] => pure { resolutions := [], failed := [] }
  | script :: rest => do
    match Script.extract script.path script.text with
    | .ok references =>
      noteCount "deadref.scanning.code_extractor" script.path references
      let resolutions ← resolveAll resolver references
      let others ← scanScripts resolver rest
      pure { others with resolutions := resolutions ++ others.resolutions }
    | .error (.unparsable _ _ reason) =>
      Noted.note [{
        level := .warning, source := "deadref.core"
        message := "Parse error for " ++ script.path ++ ": " ++ reason }]
      let others ← scanScripts resolver rest
      pure { others with failed := script.path :: others.failed }
    | .error failure => throw failure

/-- What the references of stylesheets resolve to. -/
def scanStylesheets (resolver : Resolver) : List Source → Noted Findings
  | [] => pure { resolutions := [], failed := [] }
  | stylesheet :: rest => do
    let references := Stylesheet.extract stylesheet.path stylesheet.text
    noteCount "deadref.scanning.style_extractor" stylesheet.path references
    let resolutions ← resolveAll resolver references
    let others ← scanStylesheets resolver rest
    pure { others with resolutions := resolutions ++ others.resolutions }

/-- The declared packages that nothing imports; patterns that are no texts are a fault once they are tried. -/
def unusedDeclared (declared used : List Text) (patterns : List Value) : Except Fault (List Text) :=
  match patterns.mapM Value.text? with
  | some texts => pure (Package.unusedDeclared declared used texts)
  | none =>
    let leading := (patterns.takeWhile (·.text?.isSome)).filterMap Value.text?
    if (Package.unusedDeclared declared used leading).isEmpty then pure [] else throw .wrongType

/-- The declared packages that nothing imports, if there is a usable manifest. -/
def unusedDependencies (tree : FileTree) (root : Path.Parsed) (settings : Settings) (used : List Text) :
    Noted (Option (List Text)) := do
  match ← (Manifest.load tree root).outcome with
  | .ok none => pure none
  | .ok (some declared) =>
    let unused ← Noted.liftFault (do unusedDeclared declared used (← settings.ignoreDependencies.items))
    pure (some unused)
  | .error (.badManifest path reason) =>
    let message := ((Failure.badManifest path reason).message?).getD []
    Noted.note [{
      level := .warning, source := "deadref.core"
      message := "Skipping declared-dependency check: " ++ message }]
    pure none
  | .error failure => throw failure

/-- What references are resolved in, once the files are known. -/
def resolverOf (root : Path.Parsed) (settings : Settings) (files : List Text) : Resolver where
  project := {
    root := root.toText
    files
    aliasStart := settings.aliasStart.text?.getD []
    aliasTarget := settings.aliasTarget }
  hasAlias := settings.aliasStart.text?.isSome

/-- The closed ledger of a run. -/
def ledgerOf (settings : Settings) (files : List Text) (resolutions : List Resolution) : Except Fault Ledger := do
  let suffixes ← settings.ignoredSuffixes
  let lines ← settings.ignoredLines
  pure ((Ledger.start files { suffixes, lines }).addAll resolutions).close

/-- Why a path cannot be the root of a project. -/
def rootFailure (tree : FileTree) (path : Path.Parsed) : Failure :=
  match tree.stat (tree.resolve path) with
  | .error .nameTooLong => .fault (.system .nameTooLong)
  | _ => .badRoot path.toText "project root is not a directory"

/-- Analyzes the project at a path: the report, and the tree afterwards. -/
def run (tree : FileTree) (path : Path.Parsed) (settings : Settings) : Noted (Report × FileTree) := do
  let root := tree.resolve path
  if !tree.isFolder root then throw (rootFailure tree path)
  let sources ← Discovery.scan tree root settings
  let resolver := resolverOf root settings sources.files
  let scripts ← (scanScripts resolver sources.scripts).outcome
  let stylesheets ← (scanStylesheets resolver sources.stylesheets).outcome
  let scripts ← Noted.lift scripts
  let stylesheets ← Noted.lift stylesheets
  let ledger ← Noted.liftFault (ledgerOf settings sources.files (scripts.resolutions ++ stylesheets.resolutions))
  let unused ← Noted.lift ledger.unusedFiles
  let unusedDeclared ← unusedDependencies tree root settings ledger.packages
  let (tree, moved) ←
    if settings.deleteUnused.isTruthy then Cleanup.clean tree root unused settings.backupFolder else pure (tree, [])
  let stats : Stats := {
    scanned := sources.scripts.length + sources.stylesheets.length
    skipped := (sources.skipped ++ scripts.failed ++ stylesheets.failed).mergeSort Text.le
    references := scripts.resolutions.length + stylesheets.resolutions.length
    unresolved := ledger.unresolved
    moved }
  Noted.note [{
    level := .info, source := "deadref.core"
    message := "Scan complete: " ++ Text.ofNat stats.scanned ++ " files, " ++ Text.ofNat stats.references ++
      " specifiers, " ++ Text.ofNat unused.length ++ " unused" }]
  pure ({ imports := ledger.imports, packages := ledger.packages, unused, unusedDeclared, stats }, tree)

/-- Loads the settings of the project at a path and analyzes it. -/
def analyze (tree : FileTree) (path : Path.Parsed) (file : Option Path.Parsed) (environment : List (Text × Text))
    (overrides : Layer) : Noted (Report × FileTree) := do
  let settings ← Noted.lift (Settings.load tree path file environment overrides)
  run tree path settings

end Analysis

end Deadwood
