import Deadwood.Command.Arguments
import Deadwood.Analysis

/-!
# Running the command

The command analyzes a project, writes the report to a file, and prints it.  A
failure that the library diagnoses is printed; any other stops the command.
-/

namespace Deadwood.Command

/-- How a run of the command ended. -/
structure Outcome where
  exitCode : Nat
  /-- What was printed. -/
  output : Text
  /-- The files afterwards. -/
  tree : FileTree
  /-- The fault that stopped the command. -/
  fault : Option Fault := none

/-- Text on standard output, in lines of the terminal's width. -/
def printed (markup : Text) : Except Fault Text := do
  let lines := Wrap.lines Terminal.width .fold .loose (← Markup.shown markup)
  pure (lines.flatMap (· ++ [Codepoint.char '\n']))

/-- The text of what was printed, or nothing if it cannot be shown. -/
def printedOrNothing (markup : Text) : Text := (printed markup).toOption.getD []

/-- The version of the program. -/
def versionLine : Text := "deadref version 0.1.0\n"

/-- Prepares a log file: its location, and the tree in which it is there. -/
def openLog (tree : FileTree) (path : Text) : Except SystemFault (Location × FileTree) := do
  let location ← tree.locate (tree.resolve (Path.Parsed.ofText path))
  match tree.entry? location with
  | some .folder => throw .isFolder
  | some (.file _) => pure (location, tree)
  | none => pure (location, tree.put location (.file { bytes := [] }))

/-- The tree with more bytes at the end of a file. -/
def appendTo (tree : FileTree) (location : Location) (bytes : Bytes) : FileTree :=
  match tree.entry? location with
  | some (.file content) => tree.put location (.file { content with bytes := content.bytes ++ bytes })
  | _ => tree

/-- The bytes of the records that a verbosity lets through. -/
def logBytes (verbosity : Verbosity) (log : List Record) : Bytes :=
  let lines := (log.filter (·.level.atLeast verbosity.level)).map fun record =>
    record.line ++ [Codepoint.char '\n']
  Encoding.utf8 ((Encoding.backslashSurrogates lines.flatten).filterMap Codepoint.char?)

/-- Writes a file and the folders above it. -/
def writeFile (tree : FileTree) (path : Path.Parsed) (bytes : Bytes) : Except Text FileTree :=
  match tree.makeFolders (path.names.length + 1) path.parent with
  | (_, some (fault, place)) => throw (fault.message place.toText)
  | (tree, none) =>
    match tree.locate path with
    | .error fault => throw (fault.message path.toText)
    | .ok location =>
      match tree.entry? location with
      | some .folder => throw (SystemFault.isFolder.message path.toText)
      | _ => pure (tree.put location (.file bytes))

/-- Writes the report to its file: the tree afterwards, and the file's path. -/
def writeReport (tree : FileTree) (root : Path.Parsed) (settings : Settings) (report : Report) :
    Except Failure (FileTree × Path.Parsed) :=
  match settings.reportFile with
  | .text name =>
    let path := root.append (Path.Parsed.ofText name)
    match writeFile tree path (Encoding.utf8 (report.toJson.filterMap Codepoint.char?)) with
    | .ok tree => pure (tree, path)
    | .error reason => throw (.unwritable path.toText reason)
  | _ => throw (.fault .wrongType)

/-- The overrides that options ask for. -/
def overridesOf (options : Options) : Layer :=
  let output : Value := match options.output with
    | some path => .text path
    | none => .none
  let delete : Layer := if options.delete then [("delete_unused", .bool true)] else []
  ("verbose", .bool options.verbose) :: ("quiet", .bool options.quiet) :: ("report_file", output) :: delete

/-- The end of a run that failed: what the library diagnoses is printed. -/
def failedWith (tree : FileTree) (before : Text) : Failure → Outcome
  | .fault fault => { exitCode := 1, output := before, tree, fault := some fault }
  | failure =>
    let line := printedOrNothing ("[red]Error:[/red] " ++ Markup.escape (failure.message?.getD []))
    { exitCode := 1, output := before ++ line, tree }

/-- Shows a finished report: writes it to its file unless that is not wanted, and prints it. -/
def showReport (tree : FileTree) (options : Options) (settings : Settings) (report : Report) : Outcome :=
  let written : Except Failure (FileTree × Text) :=
    if options.noReport then pure (tree, [])
    else do
      let (tree, path) ← writeReport tree options.root settings report
      let line := if options.format = .rich then
          printedOrNothing ("Report written to [blue]" ++ Markup.escape path.toText ++ "[/blue]")
        else []
      pure (tree, line)
  match written with
  | .error failure => failedWith tree [] failure
  | .ok (tree, line) =>
    match options.format.output report with
    | .error fault => failedWith tree line (.fault fault)
    | .ok output =>
      let exitCode := if options.failOnUnused && !report.unused.isEmpty then 1 else 0
      { exitCode, output := line ++ output, tree }

/-- Analyzes a project and shows the report. -/
def analyzeAndShow (tree : FileTree) (options : Options) (settings : Settings) : Noted Outcome := do
  match ← (Analysis.run tree options.root settings).outcome with
  | .error failure => pure (failedWith tree [] failure)
  | .ok (report, tree) => pure (showReport tree options settings report)

/-- Runs the command once its options are known. -/
def runOptions (tree : FileTree) (environment : List (Text × Text)) (options : Options) : Outcome :=
  match Settings.load tree options.root options.config environment (overridesOf options) with
  | .error failure => failedWith tree [] failure
  | .ok settings =>
    match options.logFile with
    | none | some [] =>
      match (analyzeAndShow tree options settings).result with
      | .ok outcome => outcome
      | .error failure => failedWith tree [] failure
    | some path =>
      match openLog tree path with
      | .error fault => failedWith tree [] (.fault (.system fault))
      | .ok (location, opened) =>
        let noted := analyzeAndShow opened options settings
        let outcome := match noted.result with
          | .ok outcome => outcome
          | .error failure => failedWith opened [] failure
        { outcome with tree := appendTo outcome.tree location (logBytes settings.verbosity noted.log) }

/-- Runs the command on arguments.  Arguments that are refused give the exit code two. -/
def run (tree : FileTree) (environment : List (Text × Text)) (args : List Text) : Outcome :=
  let refused : Outcome := { exitCode := 2, output := [], tree }
  match readArguments (args.length + 1) {} args with
  | none => refused
  | some given =>
    if given.has .help then { exitCode := 0, output := [], tree }
    else match optionsOf tree given with
      | none => refused
      | some options =>
        if options.version then { exitCode := 0, output := versionLine, tree }
        else runOptions tree environment options

end Deadwood.Command
