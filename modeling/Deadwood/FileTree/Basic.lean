import Deadwood.Path
import Deadwood.Failure
import Deadwood.Text.Encoding
import Deadwood.Text.Quoted

/-!
# File trees

A file tree maps locations to files and folders.  A location is the list of
names on the way down from the root.  A path without a root is read from the
working folder, and the folder above a folder is found by dropping a name.
-/

namespace Deadwood

/-- The names on the way down from the root of a tree. -/
abbrev Location := List Text

/-- What a file holds. -/
structure FileContent where
  bytes : Bytes
  /-- Whether the file may be read. -/
  isReadable : Bool := true
  deriving DecidableEq, Repr

instance : Coe Bytes FileContent := ⟨fun bytes => { bytes }⟩

/-- What stands at a location. -/
inductive Entry where
  | file (content : FileContent)
  | folder
  deriving DecidableEq, Repr

/-- Files and folders below the root. -/
structure FileTree where
  /-- The working folder. -/
  here : Location
  entries : List (Location × Entry)

namespace FileTree

/-- What stands at a location; the root is a folder. -/
def entry? (tree : FileTree) (location : Location) : Option Entry :=
  if location = [] then some .folder else (tree.entries.find? (·.1 = location)).map (·.2)

/-- The most bytes that a name may have. -/
def nameLimit : Nat := 255

/-- Whether a name has too many bytes. -/
def isTooLong (name : Text) : Bool := nameLimit < ((Encoding.encodeEscaped? name).getD []).length

/-- The number of bytes that a path must not reach. -/
def pathLimit : Nat := 4096

/-- Whether a path has too many bytes. -/
def isLong (path : Path.Parsed) : Bool := pathLimit ≤ Encoding.byteCount path.toText

/-- Why a path cannot have a text in it, if so: the text has no bytes, or one of them is zero. -/
def nameFault? (text : Text) : Option Fault :=
  if (Encoding.encodeEscaped? text).isNone then some .unencodable
  else if text.any (· = Codepoint.char '\x00') then some .badValue
  else none

/-- Goes down names from a location; every step has to start in a folder. -/
def walk (tree : FileTree) : Location → List Text → Except SystemFault Location
  | here, [] => pure here
  | here, name :: rest =>
    match tree.entry? here with
    | some .folder =>
      if isTooLong name then throw .nameTooLong
      else walk tree (if name = Path.up then here.dropLast else here ++ [name]) rest
    | some (.file _) => throw .notFolder
    | none => throw .notFound

/-- The names of a path from the root. -/
def namesFromRoot (tree : FileTree) (path : Path.Parsed) : List Text :=
  if path.slashes = 0 then tree.here ++ path.names else path.names

/-- The location that a path leads to; nothing need stand there. -/
def locate (tree : FileTree) (path : Path.Parsed) : Except SystemFault Location :=
  if isLong path then throw .nameTooLong else tree.walk [] (tree.namesFromRoot path)

/-- The rooted path of the place that a path leads to by its names alone. -/
def resolve (tree : FileTree) (path : Path.Parsed) : Path.Parsed where
  slashes := 1
  names := ((tree.namesFromRoot path).foldl (Path.step true) []).reverse

/-- What stands where a path leads. -/
def stat (tree : FileTree) (path : Path.Parsed) : Except SystemFault Entry := do
  match tree.entry? (← tree.locate path) with
  | some entry => pure entry
  | none => throw .notFound

def isFile (tree : FileTree) (path : Path.Parsed) : Bool :=
  match tree.stat path with
  | .ok (.file _) => true
  | _ => false

def isFolder (tree : FileTree) (path : Path.Parsed) : Bool :=
  match tree.stat path with
  | .ok .folder => true
  | _ => false

def existsAt (tree : FileTree) (path : Path.Parsed) : Bool := (tree.stat path).toOption.isSome

/-- The file where a path leads. -/
def file (tree : FileTree) (path : Path.Parsed) : Except SystemFault FileContent := do
  match ← tree.stat path with
  | .file content => pure content
  | .folder => throw .isFolder

/-- What is read from the file where a path leads. -/
def content (tree : FileTree) (path : Path.Parsed) : Except SystemFault Bytes := do
  let file ← tree.file path
  if file.isReadable then pure file.bytes else throw .denied

/-- The tree with an entry at a location, in place of any other there. -/
def put (tree : FileTree) (location : Location) (entry : Entry) : FileTree :=
  if tree.entries.any (·.1 = location) then
    { tree with entries := tree.entries.map fun e => if e.1 = location then (location, entry) else e }
  else { tree with entries := tree.entries ++ [(location, entry)] }

/-- The tree without a location. -/
def erase (tree : FileTree) (location : Location) : FileTree :=
  { tree with entries := tree.entries.filter (·.1 ≠ location) }

/-- The names and entries directly inside a location. -/
def children (tree : FileTree) (location : Location) : List (Text × Entry) :=
  let depth := location.length + 1
  tree.entries.filterMap fun (place, entry) =>
    -- Most places are told apart by their depths alone.
    if place.length = depth && place.dropLast = location then place.getLast?.map (·, entry) else none

/-- The folders below a location, by the names that lead to them from there. -/
def foldersBelow (tree : FileTree) (location : Location) : List (List Text) :=
  tree.entries.filterMap fun (place, entry) =>
    if entry = .folder && location.isPrefixOf place && location.length < place.length then
      some (place.drop location.length)
    else none

/-- The files below the working folder by their paths from there. -/
def files (tree : FileTree) : List (Text × Bytes) :=
  tree.entries.filterMap fun (place, entry) =>
    match entry with
    | .file content =>
      if tree.here.isPrefixOf place then some (Path.join (place.drop tree.here.length), content.bytes) else none
    | .folder => none

/-- The tree with a folder at a path where nothing stands. -/
def makeFolder (tree : FileTree) (path : Path.Parsed) : Except SystemFault FileTree := do
  let location ← tree.locate path
  if (tree.entry? location).isSome then throw .alreadyExists else pure (tree.put location .folder)

/-- The folder at a path is made, with the folders above it; a folder that is there stays.  The tree afterwards, and
what was refused at which path: folders made before a refusal stay.  `bound` limits the steps upwards. -/
def makeFolders (tree : FileTree) : Nat → Path.Parsed → FileTree × Option (SystemFault × Path.Parsed)
  | 0, path => (tree, some (.notFound, path))
  | bound + 1, path =>
    match tree.makeFolder path with
    | .ok made => (made, none)
    | .error .notFound =>
      if path.names = [] then (tree, some (.notFound, path))
      else match makeFolders tree bound path.parent with
        | (above, some refusal) => (above, some refusal)
        | (above, none) =>
          match above.makeFolder path with
          | .ok made => (made, none)
          | .error fault => (above, if above.isFolder path then none else some (fault, path))
    | .error fault => (tree, if tree.isFolder path then none else some (fault, path))

end FileTree

/-- What the file system says when it refuses something at a path. -/
def SystemFault.message (fault : SystemFault) (path : Text) : Text :=
  "[Errno " ++ Text.ofNat fault.number ++ "] " ++ fault.description ++ ": " ++ Text.quoted path

end Deadwood
