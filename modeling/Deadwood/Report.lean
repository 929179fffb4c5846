import Deadwood.Json.Basic
import Deadwood.Text.Encoding

/-!
# Usage reports

What a run found: the files and packages referred to, the files that nothing
refers to, and the declared packages that nothing imports.  A report is shown
with paths that can be written as UTF-8.
-/

namespace Deadwood

/-- Counts of a run. -/
structure Stats where
  /-- The number of files whose text was looked at. -/
  scanned : Nat := 0
  /-- The files that could not be read or parsed. -/
  skipped : List Text := []
  /-- The number of references. -/
  references : Nat := 0
  /-- How often each reason was given, in the order of first use. -/
  unresolved : List (Text × Nat) := []
  /-- The files moved to the backup folder. -/
  moved : List Text := []

/-- What a run found.  The lists hold each text once. -/
structure Report where
  imports : List Text
  packages : List Text
  unused : List Text
  /-- The declared packages that nothing imports, if there is a manifest. -/
  unusedDeclared : Option (List Text) := none
  stats : Stats := {}

namespace Report

/-- Texts as they are shown, in order. -/
def shown (texts : List Text) : List Text := (texts.map Text.display).mergeSort Text.le

/-- The lists of a report under their names. -/
def sections (report : Report) : List (Text × List Text) :=
  let declared : List (Text × List Text) := match report.unusedDeclared with
    | some names => [("unused_dependencies", shown names)]
    | none => []
  ("imports", shown report.imports) :: ("dependencies", shown report.packages) ::
    ("unused_imports", shown report.unused) :: declared

/-- A report as JSON. -/
def toJson (report : Report) : Text := Json.renderLists report.sections

/-- The unused files, one to a line. -/
def toLines (report : Report) : Text := Text.joinWith "\n" (shown report.unused)

end Report

end Deadwood
