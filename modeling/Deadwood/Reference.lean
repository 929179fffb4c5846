import Deadwood.Path

/-!
# References

A reference is a text written in a source file that may name another file or a
package, together with the file and the kind of place where it was found.
-/

namespace Deadwood

/-- The kinds of places at which a reference is written. -/
inductive Site where
  | staticImport
  | dynamicImport
  | assetAttribute
  | styleImport
  deriving DecidableEq, Repr

/-- A reference as written, before it is resolved. -/
structure Reference where
  origin : Text
  text : Text
  site : Site
  deriving DecidableEq, Repr

/-- The extensions with which a reference can name a file of the project. -/
def recognizedExtensions : List Text :=
  ["ts", "tsx", "less", "scss", "css", "png", "jpg", "jpeg", "gif", "svg", "mp3", "mp4", "wav", "woff", "woff2", "ttf",
    "eot", "json"].map Text.ofString

/-- Whether the suffix of a path is a recognized extension. -/
def hasRecognizedExtension (path : Text) : Bool :=
  match Path.suffix path with
  | [] => false
  | _ :: extension => recognizedExtensions.contains extension

end Deadwood
