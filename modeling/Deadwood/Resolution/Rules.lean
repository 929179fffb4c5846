import Deadwood.Resolution.Basic

/-!
# Rules of resolution

An ordered list of rules decides what a reference means: the first rule that
applies to its text and site.  Resolution looks at texts only, never at files.
-/

namespace Deadwood

/-- What resolution knows of the project. -/
structure Project where
  /-- The root folder as a path. -/
  root : Text
  /-- The known files, by their paths from the root. -/
  files : List Text
  /-- The beginning of a reference that stands for `aliasTarget`. -/
  aliasStart : Text := "@/"
  /-- The folder that `aliasStart` stands for, with its closing slash. -/
  aliasTarget : Text := "src/"

namespace Resolution

/-- The rules, and the three checks made before any rule. -/
inductive Rule where
  | encoding
  | empty
  | importer
  | aliased
  | styleTilde
  | relative
  | sourcePath
  | dependency
  | fallback
  deriving DecidableEq, Repr

/-- The name of a rule. -/
def Rule.name : Rule → String
  | encoding => "encoding"
  | empty => "empty"
  | importer => "importer"
  | aliased => "alias"
  | styleTilde => "style-tilde"
  | relative => "relative"
  | sourcePath => "src-path"
  | dependency => "dependency"
  | fallback => "fallback"

def nonProjectReason : Text := "non-project code reference"
def outsideReason : Text := "path leaves the project root"
def packagesReason : Text := "path inside node_modules"
def unknownReason : Text := "not a project path or package"
def emptyReason : Text := "empty specifier"
def encodingReason : Text := "not valid UTF-8 path text: surrogates not allowed"

/-- Whether a normalized path stays below the root. -/
def insideRoot (path : Text) : Bool :=
  path != Path.up && !Text.startsWith path "../" && !Text.startsWith path "/"

/-- A path as written, with slashes in place of backslashes. -/
def forwardSlashes (text : Text) : Text := Text.replaceChar text '\\' Path.slash

/-- A reference ready for the rules: its trimmed text, and its importer from the root. -/
structure Request where
  importer : Text
  text : Text
  site : Site

end Resolution

namespace Project

open Resolution

/-- The beginning of every absolute path below the root. -/
def rootStart (project : Project) : Text :=
  Text.trimEndBy (· = Path.slash) (Path.Parsed.ofText project.root).toText ++ [Path.slash]

/-- A text without the root at its front. -/
def withoutRoot (project : Project) (path : Text) : Text :=
  if Text.startsWith path project.rootStart then path.drop project.rootStart.length else path

/-- An importer's path from the root, if it lies below it. -/
def importerPath (project : Project) (path : Text) : Option Text :=
  let path := forwardSlashes path
  if !Text.startsWith path project.rootStart && Text.startsWith path [Path.slash] then none
  else
    let normalized := Path.normalize (project.withoutRoot path)
    if insideRoot normalized then some normalized else none

/-- The meaning of a path from the root: with a recognized extension the file itself, else a known file. -/
def finish (project : Project) (path written : Text) : Resolution :=
  if !insideRoot path then .unresolved written outsideReason
  else if hasRecognizedExtension path then .projectFile path
  else probe path project.files

/-- The rule that decides a request. -/
def ruleFor (project : Project) (request : Request) : Rule :=
  if Text.startsWith request.text project.aliasStart then .aliased
  else if request.site = .styleImport && Text.startsWith request.text "~" then .styleTilde
  else if Text.startsWith request.text "." || request.site = .styleImport then .relative
  else if !Text.contains request.text "://" && (Path.Parsed.ofText request.text).parts.contains ("src" : Text) then
    .sourcePath
  else if request.site = .staticImport || request.site = .dynamicImport then .dependency
  else .fallback

/-- The meaning of a reference that begins with the alias. -/
def resolveAlias (project : Project) (text : Text) : Resolution :=
  project.finish (Path.normalize (project.aliasTarget ++ text.drop project.aliasStart.length)) text

/-- What a rule makes of a request. -/
def applyRule (project : Project) (rule : Rule) (request : Request) : Resolution :=
  match rule with
  | .aliased => project.resolveAlias request.text
  | .styleTilde =>
    if Text.startsWith request.text ("~" ++ project.aliasStart) then project.resolveAlias (request.text.drop 1)
    else .unresolved request.text nonProjectReason
  | .relative =>
    project.finish (Path.normalize (Path.append (Path.folder request.importer) request.text)) request.text
  | .sourcePath =>
    project.finish (Path.normalize (Text.trimStartBy (· = Path.slash) (project.withoutRoot request.text))) request.text
  | .dependency => .package request.text
  | _ => .unresolved request.text unknownReason

/-- Drops what lies among the installed packages. -/
def dropPackages (resolution : Resolution) (written : Text) : Resolution :=
  match resolution with
  | .projectFile path => if Text.contains path "node_modules" then .unresolved written packagesReason else resolution
  | .package name => if Text.contains name "node_modules" then .unresolved written packagesReason else resolution
  | .unresolved .. => resolution

/-- The rule that decides a reference, its importer from the root if the rules were reached, and its meaning. -/
def explain (project : Project) (importer specifier : Text) (site : Site) : Rule × Option Text × Resolution :=
  if Text.hasSurrogate specifier || Text.hasSurrogate importer then
    (.encoding, none, .unresolved specifier encodingReason)
  else
    let text := forwardSlashes (Text.trim specifier)
    if text = [] then (.empty, none, .unresolved specifier emptyReason)
    else match project.importerPath importer with
      | none => (.importer, none, .unresolved specifier outsideReason)
      | some path =>
        let request : Request := { importer := path, text, site }
        let rule := project.ruleFor request
        (rule, some path, dropPackages (project.applyRule rule request) specifier)

/-- The meaning of a reference. -/
def resolve (project : Project) (reference : Reference) : Resolution :=
  (project.explain reference.origin reference.text reference.site).2.2

end Project

end Deadwood
