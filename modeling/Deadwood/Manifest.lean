import Deadwood.Json.Reader
import Deadwood.FileTree.Read
import Deadwood.Log

/-!
# The package manifest

The packages that a project declares: the names in two sections of the JSON
object in `package.json`.
-/

namespace Deadwood.Manifest

def fileName : Text := "package.json"

/-- The sections that declare packages. -/
def sections : List String := ["dependencies", "devDependencies"]

/-- The names that a section declares; an empty value of any kind declares none. -/
def sectionNames (members : List (Text × Json)) (name : String) : Except Text (List Text) :=
  match Json.member? name members with
  | none => pure []
  | some (.object entries) => pure (entries.map (·.1))
  | some value => if value.isTruthy then throw (Text.ofString ("'" ++ name ++ "' must be an object")) else pure []

/-- The names that a manifest declares, or why it is refused. -/
def declared : Json → Except Text (List Text)
  | .object members => do
    let names ← sections.mapM (sectionNames members)
    pure (Text.sortedSet names.flatten)
  | _ => throw (Text.ofString "top-level value must be an object")

/-- The declared names in the bytes of a manifest at a path. -/
def read (path : Text) (bytes : Bytes) : Except Failure (List Text) :=
  match Encoding.decode .utf8 .strict bytes with
  | .error _ => throw (.fault .undecodable)
  | .ok text =>
    let text := Encoding.unifyLines text
    match Json.read text with
    | .error (.malformed trouble position) =>
      throw (.badManifest path ("Invalid JSON: " ++ Json.troubleMessage text trouble position))
    | .error .numberTooLong => throw (.fault .badValue)
    | .error .tooDeep => throw (.fault .tooDeep)
    | .ok value => (declared value).mapError (Failure.badManifest path)

/-- The names declared by the manifest in a folder, if there is one. -/
def load (tree : FileTree) (root : Path.Parsed) : Noted (Option (List Text)) :=
  let path := root.append (Path.Parsed.ofText fileName)
  match tree.stat path with
  | .ok (.file _) =>
    match tree.content path with
    | .ok bytes => Noted.lift ((read path.toText bytes).map some)
    | .error fault => throw (.badManifest path.toText ("OS error: " ++ fault.message path.toText))
  | .error .nameTooLong => throw (.fault (.system .nameTooLong))
  | _ => do
    Noted.note [{
      level := .debug, source := "deadref.manifest"
      message := "No package.json at " ++ root.toText ++ "; skipping declared-dependency check" }]
    pure none

end Deadwood.Manifest
