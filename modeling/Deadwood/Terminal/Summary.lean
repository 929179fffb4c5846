import Deadwood.Report
import Deadwood.Terminal.Markup
import Deadwood.Terminal.Table

/-!
# Reports in a terminal

A report is shown as a panel with its counts, followed by the unused files, the
declared packages that nothing imports, and the reasons for what was not
resolved, the most frequent one first.
-/

namespace Deadwood.Report

/-- The lines of the panel. -/
def countLines (report : Report) : List Text :=
  let line (label : String) (n : Nat) : Text := (label : Text) ++ Text.ofNat n
  [line "Files scanned: " report.stats.scanned,
    line "Specifiers resolved: " report.stats.references,
    line "Referenced: " report.imports.length ++ line "  (packages: " report.packages.length ++ ")",
    line "Unused files: " report.unused.length] ++
  (if report.stats.skipped.isEmpty then []
    else [line "Skipped (unreadable or unparsable): " report.stats.skipped.length]) ++
  (if report.stats.moved.isEmpty then [] else [line "Moved to backup: " report.stats.moved.length])

/-- What the markup of some texts shows once they are escaped. -/
def listed (texts : List Text) : Except Fault (List Text) := texts.mapM fun text => Markup.shown (Markup.escape text)

/-- The reasons with their counts, the most frequent first. -/
def rankedReasons (report : Report) : List (Text × Nat) :=
  report.stats.unresolved.mergeSort fun a b => b.2 ≤ a.2

/-- The lines of a report in a terminal. -/
def terminalLines (report : Report) : Except Fault (List Text) := do
  let panel := Terminal.panel "deadref" (Text.joinWith "\n" report.countLines)
  let unused ←
    if report.unused.isEmpty then pure [Text.ofString "No unused files found."]
    else do pure (Terminal.listing "Unused files" (← listed (shown report.unused)))
  let declared ← match report.unusedDeclared with
    | none | some [] => pure []
    | some names =>
      let names := (names.mergeSort Text.le).map Text.display
      pure (Terminal.listing "Declared but never imported" (← listed names))
  let reasons ←
    if report.stats.unresolved.isEmpty then pure []
    else do
      let rows ← report.rankedReasons.mapM fun (reason, n) => do pure (← Markup.shown reason, Text.ofNat n)
      pure (Terminal.framed "Unresolved specifiers" ("Reason", "Count") rows)
  pure (panel ++ unused ++ declared ++ reasons)

end Deadwood.Report
