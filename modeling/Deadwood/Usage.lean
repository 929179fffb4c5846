import Deadwood.Resolution.Basic
import Deadwood.Text.Lowercase
import Deadwood.Ignore

/-!
# The usage ledger

A ledger gathers resolutions.  What is referenced, which packages are imported
and how often a reason was given do not depend on the order of the entries.
Unused files are known once the ledger is closed.
-/

namespace Deadwood

/-- The files that are never reported as unused. -/
structure Withheld where
  /-- Ends of paths in lower case. -/
  suffixes : List Text
  /-- Ignore patterns, or why they cannot be used. -/
  lines : Except Fault (List Text)

namespace Withheld

/-- Whether a path is withheld. -/
def holds (withheld : Withheld) (path : Text) : Except Fault Bool :=
  if withheld.suffixes.any (Text.endsWith (Text.lower path)) then pure true
  else do Ignore.isIgnored path (← withheld.lines)

end Withheld

/-- Resolutions gathered so far. -/
structure Ledger where
  /-- The scanned files, each once. -/
  files : List Text
  withheld : Withheld
  /-- The project files referred to, each once. -/
  referenced : List Text := []
  /-- The packages imported, each once. -/
  packages : List Text := []
  /-- How often each reason was given, in the order of first use. -/
  unresolved : List (Text × Nat) := []
  complete : Bool := false

namespace Ledger

/-- A text put into a list that holds each text once. -/
def insert (texts : List Text) (text : Text) : List Text :=
  if texts.contains text then texts else texts ++ [text]

/-- One more for a reason. -/
def count (reason : Text) : List (Text × Nat) → List (Text × Nat)
  | [] => [(reason, 1)]
  | (known, n) :: rest => if known = reason then (known, n + 1) :: rest else (known, n) :: count reason rest

/-- The empty ledger of a scan. -/
def start (files : List Text) (withheld : Withheld) : Ledger where
  files := files.foldl insert []
  withheld

/-- Enters one resolution. -/
def add (ledger : Ledger) : Resolution → Ledger
  | .projectFile path => { ledger with referenced := insert ledger.referenced path }
  | .package name => { ledger with packages := insert ledger.packages name }
  | .unresolved _ reason => { ledger with unresolved := count reason ledger.unresolved }

/-- Enters several resolutions. -/
def addAll (ledger : Ledger) (resolutions : List Resolution) : Ledger := resolutions.foldl add ledger

/-- Closes the ledger. -/
def close (ledger : Ledger) : Ledger := { ledger with complete := true }

/-- The scanned files that are referred to. -/
def importedFiles (ledger : Ledger) : List Text := ledger.referenced.filter ledger.files.contains

/-- The project files and packages referred to. -/
def imports (ledger : Ledger) : List Text := ledger.packages.foldl insert ledger.referenced

/-- The scanned files that nothing refers to, apart from those withheld. -/
def unusedFiles (ledger : Ledger) : Except Failure (List Text) :=
  if !ledger.complete then throw .incomplete
  else
    let candidates := ledger.files.filter (!ledger.referenced.contains ·)
    match candidates.filterM fun path => (!·) <$> ledger.withheld.holds path with
    | .ok unused => pure unused
    | .error fault => throw (.fault fault)

end Ledger

end Deadwood
