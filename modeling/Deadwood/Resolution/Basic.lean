import Deadwood.Reference

/-!
# Resolutions

What a reference turns out to mean: a file of the project, a package, or
nothing that the project knows.  A reference without a recognized extension
is completed by the first suffix with which it names a known file.
-/

namespace Deadwood

/-- The meaning of a reference. -/
inductive Resolution where
  /-- A file of the project, by its path from the root. -/
  | projectFile (path : Text)
  /-- A package, named as written. -/
  | package (name : Text)
  /-- Neither of the two, with the reason. -/
  | unresolved (text reason : Text)
  deriving DecidableEq, Repr

namespace Resolution

/-- The suffixes that complete a reference, in the order in which they are tried. -/
def probeSuffixes : List Text :=
  [".ts", ".tsx", "/index.ts", "/index.tsx", ".d.ts", "/index.d.ts"].map Text.ofString

def notFoundReason : Text :=
  "unknown file type: not among the scanned files, or not a .ts, .tsx or .d.ts file"

/-- The known file that a path names once a suffix is added. -/
def probe (path : Text) (known : List Text) : Resolution :=
  let base := Text.trimEndBy (· = Path.slash) path
  match (probeSuffixes.map (base ++ ·)).find? known.contains with
  | some candidate => projectFile candidate
  | none => unresolved path notFoundReason

end Resolution

end Deadwood
