import Deadwood.Text.Blank

/-!
# Paths

A path is a text whose segments stand between slashes.  `Path.normalize` works
on the text alone, `Path.Parsed` is the reading of a path as a root and
segments, without empty and `.` segments.
-/

namespace Deadwood.Path

/-- The slash between segments. -/
def slash : Codepoint := '/'

/-- The segment that stands for the folder above. -/
def up : Text := ".."

/-- The segment that stands for the folder itself. -/
def here : Text := "."

/-- The pieces of a path between its slashes, empty ones included. -/
def segments (path : Text) : List Text := Text.splitOn slash path

/-- The segments that say something: neither empty nor `.`. -/
def properSegments (path : Text) : List Text := (segments path).filter fun s => s != [] && s != here

/-- Segments put together with slashes. -/
def join (parts : List Text) : Text := Text.joinWith [slash] parts

/-- The number of slashes that a path keeps at its front: none, one, or exactly two. -/
def rootSlashes (path : Text) : Nat :=
  match (path.takeWhile (· = slash)).length with
  | 0 => 0
  | 2 => 2
  | _ => 1

/-- Reads one more segment onto a stack of segments, the last one first; `rooted` paths have nothing above the root. -/
def step (rooted : Bool) (stack : List Text) (segment : Text) : List Text :=
  if segment = up then
    match stack with
    | [] => if rooted then [] else [up]
    | last :: below => if last = up then up :: stack else below
  else segment :: stack

/-- The path without empty, `.` and avoidable `..` segments; `.` if nothing is left. -/
def normalize (path : Text) : Text :=
  let slashes := rootSlashes path
  let stack := (properSegments path).foldl (step (slashes != 0)) []
  match List.replicate slashes slash ++ join stack.reverse with
  | [] => here
  | result => result

/-- A path seen from a folder; a rooted path stands as it is. -/
def append (folder path : Text) : Text :=
  if Text.startsWith path [slash] then path
  else if folder = [] || Text.endsWith folder [slash] then folder ++ path
  else folder ++ slash :: path

/-- The text before the last slash, without slashes at its end unless there is nothing else. -/
def folder (path : Text) : Text :=
  let head := (path.reverse.dropWhile (· ≠ slash)).reverse
  if head.all (· = slash) then head else Text.trimEndBy (· = slash) head

/-- A path as a number of root slashes and its proper segments. -/
structure Parsed where
  slashes : Nat
  names : List Text
  deriving DecidableEq, Repr

namespace Parsed

/-- Reads a path. -/
def ofText (path : Text) : Parsed where
  slashes := rootSlashes path
  names := properSegments path

/-- Writes a path; one without root and names is `.`. -/
def toText (path : Parsed) : Text :=
  match List.replicate path.slashes slash ++ join path.names with
  | [] => here
  | text => text

/-- The last name, empty if there is none. -/
def name (path : Parsed) : Text := path.names.getLastD []

/-- The names and, first, the root if there is one. -/
def parts (path : Parsed) : List Text :=
  if path.slashes = 0 then path.names else List.replicate path.slashes slash :: path.names

/-- A path below another; a rooted path replaces it. -/
def append (path below : Parsed) : Parsed :=
  if below.slashes = 0 then { path with names := path.names ++ below.names } else below

/-- The folder that holds a path. -/
def parent (path : Parsed) : Parsed := { path with names := path.names.dropLast }

end Parsed

/-- The end of a name from its last point on, if the point is neither its first nor its last code point. -/
def suffixOfName (name : Text) : Text :=
  let tail := (name.reverse.takeWhile (· ≠ Codepoint.char '.')).reverse
  if tail.length + 1 < name.length && tail ≠ [] then Codepoint.char '.' :: tail else []

/-- The suffix of a path's last name, with its point. -/
def suffix (path : Text) : Text := suffixOfName (Parsed.ofText path).name

end Deadwood.Path
