import Deadwood.Terminal.Summary

/-!
# Report formats

The forms in which a report is shown: for reading in a terminal, as JSON, and as
a bare list of the unused files.
-/

namespace Deadwood

/-- The forms of a report. -/
inductive Format where
  | rich
  | json
  | quiet
  deriving DecidableEq, Repr

namespace Format

def name : Format → String
  | rich => "rich"
  | json => "json"
  | quiet => "quiet"

/-- The format of a given name. -/
def ofName? (name : Text) : Option Format := [rich, json, quiet].find? fun format => (format.name : Text) = name

/-- What is said of a name that no format has. -/
def unknownName (name : Text) : Text :=
  "Unknown formatter: " ++ Text.quoted name ++ ". Choose from: json, quiet, rich"

/-- A letter without its case, among the letters of ASCII and the long s. -/
def foldCase : Codepoint → Codepoint
  | .char c => if c == 'ſ' then .char 's' else .char c.toLower
  | c => c

/-- The format of a given name in any case. -/
def ofAnyCase? (name : Text) : Option Format := ofName? (name.map foldCase)

/-- What is printed of a report. -/
def output (format : Format) (report : Report) : Except Fault Text :=
  match format with
  | rich => do pure ((← report.terminalLines).flatMap (· ++ [Codepoint.char '\n']))
  | json => pure (report.toJson ++ "\n")
  | quiet => pure (report.toLines ++ "\n")

end Format

end Deadwood
