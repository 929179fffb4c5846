import Deadwood.Proofs.BackupFolder
import Deadwood.Proofs.Isolation
import Deadwood.Proofs.Limits
import Deadwood.Proofs.Selection

/-!
# Manifests that cannot be used

The manifest comes last in a run, when what is imported and what is unused is
known.  A manifest that may not be read, is no JSON, or not of the right shape is
left out of the report.  One that is no text, or on which the JSON reader gives up, ends
the run with a fault.
-/

namespace Deadwood

/-! ## Reading a manifest -/

namespace Manifest

variable {path text : Text} {bytes : Bytes}

/-- The bytes are a text, and reading it as JSON is not given up. -/
def Manageable (bytes : Bytes) : Prop :=
  ∃ text, Encoding.decode .utf8 .strict bytes = .ok text ∧
    Json.read (Encoding.unifyLines text) ≠ .error .tooDeep ∧
    Json.read (Encoding.unifyLines text) ≠ .error .numberTooLong

/-- A manifest that can be managed is read or refused; any other ends in a fault. -/
theorem read_cases (path : Text) (bytes : Bytes) :
    (Manageable bytes ∧ ((∃ names, read path bytes = .ok names) ∨
      ∃ reason, read path bytes = .error (.badManifest path reason))) ∨
    (¬ Manageable bytes ∧ ∃ fault, read path bytes = .error (.fault fault)) := by
  simp only [read, Manageable]
  cases decoded : Encoding.decode .utf8 .strict bytes with
  | error trouble => exact .inr ⟨by simp, _, rfl⟩
  | ok text =>
    simp only [Except.ok.injEq, exists_eq_left']
    cases parsed : Json.read (Encoding.unifyLines text) with
    | error trouble =>
      cases trouble with
      | malformed trouble position => exact .inl ⟨by simp, .inr ⟨_, rfl⟩⟩
      | numberTooLong => exact .inr ⟨by simp, _, rfl⟩
      | tooDeep => exact .inr ⟨by simp, _, rfl⟩
    | ok value =>
      refine .inl ⟨by simp, ?_⟩
      dsimp only
      cases declared value with
      | ok names => exact .inl ⟨names, rfl⟩
      | error reason => exact .inr ⟨reason, rfl⟩

/-- A text with few opening brackets and without a long number can be managed. -/
theorem manageable_of_limits (decoded : Encoding.decode .utf8 .strict bytes = .ok text)
    (shallow : Json.limits.weight (Encoding.unifyLines text) ≤ Json.depthLimit)
    (short : ¬ Json.limits.HasLongNumber (Encoding.unifyLines text)) : Manageable bytes :=
  ⟨text, decoded, fun deep => Nat.not_lt.mpr shallow (Json.read_gives_up.1 deep),
    fun long => short (Json.read_gives_up.2 long)⟩

/-- A manifest may not be read at all, or its bytes can be managed. -/
def IsManageable (content : FileContent) : Prop := content.isReadable = true → Manageable content.bytes

end Manifest

/-! ## The stages before the manifest -/

theorem FileTree.stat_erase {tree : FileTree} {place location : Location} {path : Path.Parsed} {content : FileContent}
    (file : tree.entry? place = some (.file content)) (leads : tree.locate path = .ok location)
    (other : location ≠ place) : (tree.erase place).stat path = tree.stat path := by
  simp only [stat, leads, (locate_erase file).mpr leads, bind, Except.bind, entry?_erase other]

namespace Discovery

variable {tree : FileTree} {root : Path.Parsed} {here place : Location} {settings : Settings}
  {content : FileContent}

/-- The patterns of the settings miss a location. -/
def Avoids (tree : FileTree) (root : Path.Parsed) (settings : Settings) (place : Location) : Prop :=
  ∀ patterns, patterns = settings.scriptPatterns ∨ patterns = settings.stylePatterns →
    Misses tree root settings.backupFolder patterns place

/-- A selected file is read as before when a file is taken away that the patterns miss. -/
theorem readSource_erase (proper : tree.Proper) (file : tree.entry? place = some (.file content))
    (located : tree.locate root = .ok here) {folder path : Text} {patterns : Value} {paths : List Text}
    (ran : select tree root folder patterns = .ok paths) (misses : Misses tree root folder patterns place)
    (listed : path ∈ paths) (limit : Except Fault Int) :
    readSource (tree.erase place) root limit path = readSource tree root limit path := by
  obtain ⟨values, items, value, among, pattern, read, ⟨names, hit, rfl⟩, candidate⟩ := (mem_select ran).mp listed
  obtain ⟨others, location, held, leadsTo⟩ := leadsTo_of_select proper located ran listed
  cases Path.join_inj leadsTo.steps (proper.toWellNamed.steps hit) leadsTo.spelled.symm
  have elsewhere : location ≠ place := by
    intro here
    have led := misses values items value among pattern read names (List.mem_of_mem_filter hit)
    rw [locationOf_eq located, ← FileTree.walk_eq_descend leadsTo.walks, candidate] at led
    cases (led here).1
  apply readSource_congr
  rw [FileTree.file, FileTree.file, FileTree.stat_erase file leadsTo.leads elsewhere]

/-- What a scan hands on is the same when a file is taken away that it does not select. -/
theorem scan_gist_erase (proper : tree.Proper) (file : tree.entry? place = some (.file content))
    (located : tree.locate root = .ok here) (outside : here ≠ place) (avoids : Avoids tree root settings place) :
    (scan (tree.erase place) root settings).result.map gist =
      (scan tree root settings).result.map gist := by
  have selects : ∀ patterns, patterns = settings.scriptPatterns ∨ patterns = settings.stylePatterns →
      select (tree.erase place) root settings.backupFolder patterns =
        select tree root settings.backupFolder patterns := by
    intro patterns either
    exact select_erase proper file located outside (avoids patterns either)
  have reads : ∀ patterns paths (references : Source → List Reference),
      patterns = settings.scriptPatterns ∨ patterns = settings.stylePatterns →
      select tree root settings.backupFolder patterns = .ok paths →
      (readAll (tree.erase place) root settings.maxBytes paths).result.map (·.1.flatMap references) =
        (readAll tree root settings.maxBytes paths).result.map (·.1.flatMap references) := by
    intro patterns paths references either selected
    apply readAll_references_congr
    intro path member
    rw [readSource_erase proper file located selected (avoids patterns either) member]
  rw [scan_gist, scan_gist, selects _ (.inl rfl), selects _ (.inr rfl)]
  cases scripted : select tree root settings.backupFolder settings.scriptPatterns with
  | error fault => rfl
  | ok scripts =>
    simp only [Except.mapError, bind, Except.bind, reads _ _ _ (.inl rfl) scripted]
    cases styled : select tree root settings.backupFolder settings.stylePatterns with
    | error fault => rfl
    | ok styles => simp only [reads _ _ _ (.inr rfl) styled]

end Discovery

namespace Analysis

variable {tree after : FileTree} {path : Path.Parsed} {settings : Settings} {place : Location}
  {content : FileContent}

/-- The lists of a report that the manifest has no part in. -/
def lists (outcome : Report × FileTree) : List Text × List Text × List Text :=
  (outcome.1.imports, outcome.1.packages, outcome.1.unused)

/-- The ledger of a run and its unused files, from what the scan hands on. -/
def survey (root : Path.Parsed) (settings : Settings)
    (gist : List Text × List Reference × List Reference) : Except Failure (Ledger × List Text) := do
  let resolver := resolverOf root settings gist.1
  let scripts ← (resolveAll resolver gist.2.1).result
  let stylesheets ← (resolveAll resolver gist.2.2).result
  let ledger ← (ledgerOf settings gist.1 (scripts ++ stylesheets)).mapError Failure.fault
  let unused ← ledger.unusedFiles
  pure (ledger, unused)

theorem mem_files_of_survey {root : Path.Parsed} {gist : List Text × List Reference × List Reference}
    {found : Ledger × List Text} (surveyed : survey root settings gist = .ok found) :
    ∀ file ∈ found.2, file ∈ gist.1 := by
  simp only [survey, bind, Outcome.bind_eq_ok, Outcome.mapError_eq_ok, pure, Except.pure] at surveyed
  obtain ⟨scripts, -, stylesheets, -, ledger, entered, unused, reported, done⟩ := surveyed
  cases done
  intro file listed
  exact ((mem_unused_of_entered entered reported).mp listed).1

/-- Whether the cleanup at the end of a run ends. -/
def cleaning (tree : FileTree) (root : Path.Parsed) (settings : Settings) (unused : List Text) : Except Failure Unit :=
  if settings.deleteUnused.isTruthy then
    (Cleanup.clean tree root unused settings.backupFolder).result.map fun _ => ()
  else pure ()

/-- The manifest only decides whether a run ends, and not what it lists. -/
theorem run_lists (tree : FileTree) (path : Path.Parsed) (settings : Settings) :
    (run tree path settings).result.map lists =
      if !tree.isFolder (tree.resolve path) then .error (rootFailure tree path)
      else (do
        let gist ← (Discovery.scan tree (tree.resolve path) settings).result.map Discovery.gist
        let found ← survey (tree.resolve path) settings gist
        let _ ← (unusedDependencies tree (tree.resolve path) settings found.1.packages).result
        cleaning tree (tree.resolve path) settings found.2
        pure (found.1.imports, found.1.packages, found.2)) := by
  rw [run_result]
  split
  · rfl
  · simp only [bind, survey, ← scanScripts_resolutions, ← scanStylesheets_resolutions, Outcome.map_bind,
      Outcome.bind_map, Outcome.bind_bind, Discovery.gist]
    -- Both sides pass the same stages; only the last one is left.
    refine Outcome.bind_congr fun sources => Outcome.bind_congr fun scripts =>
      Outcome.bind_congr fun stylesheets => Outcome.bind_congr fun ledger =>
      Outcome.bind_congr fun unused => Outcome.bind_congr fun declared => ?_
    rw [cleaning]
    split
    · rw [Outcome.bind_map]
      rfl
    · rfl

/-! ## The manifest in a run -/

variable {root : Path.Parsed} {used : List Text}

/-- A manifest that can be managed is used or refused as one; any other ends in a fault. -/
theorem load_cases (stored : tree.stat (root.append (Path.Parsed.ofText Manifest.fileName)) = .ok (.file content)) :
    (Manifest.IsManageable content ∧ ((∃ declared, (Manifest.load tree root).result = .ok (some declared)) ∨
      ∃ named reason, (Manifest.load tree root).result = .error (.badManifest named reason))) ∨
    (¬ Manifest.IsManageable content ∧ ∃ fault, (Manifest.load tree root).result = .error (.fault fault)) := by
  have held := FileTree.content_of_file (FileTree.file_eq_ok.mpr stored)
  simp only [Manifest.load, stored, held, Manifest.IsManageable]
  cases content.isReadable with
  | false => exact .inl ⟨by simp, .inr ⟨_, _, rfl⟩⟩
  | true =>
    simp only [if_true, Noted.result_lift, true_implies]
    rcases Manifest.read_cases (root.append (Path.Parsed.ofText Manifest.fileName)).toText content.bytes with
      ⟨manageable, ⟨declared, read⟩ | ⟨reason, refused⟩⟩ | ⟨unmanageable, fault, failed⟩
    · exact .inl ⟨manageable, .inl ⟨declared, by rw [read]; rfl⟩⟩
    · exact .inl ⟨manageable, .inr ⟨_, reason, by rw [refused]; rfl⟩⟩
    · exact .inr ⟨unmanageable, fault, by rw [failed]; rfl⟩

theorem unusedDependencies_of_missing
    (missing : tree.isFile (root.append (Path.Parsed.ofText Manifest.fileName)) = false)
    (asked : tree.stat (root.append (Path.Parsed.ofText Manifest.fileName)) ≠ .error .nameTooLong) :
    (unusedDependencies tree root settings used).result = .ok none := by
  have loaded : (Manifest.load tree root).result = .ok none := by
    simp only [Manifest.load]
    split
    case h_1 found => simp [FileTree.isFile, found] at missing
    case h_2 long => exact absurd long asked
    case h_3 => rfl
  simp only [unusedDependencies, Noted.result_bind, Outcome.result_outcome, Except.bind, loaded]
  rfl

/-- With patterns that are texts, the comparison ends with every manifest that can be managed. -/
theorem exists_unusedDependencies_of_manageable {names : List Text}
    (texts : settings.ignoreDependencies.items = .ok (names.map Value.text))
    (stored : tree.stat (root.append (Path.Parsed.ofText Manifest.fileName)) = .ok (.file content))
    (manageable : Manifest.IsManageable content) (used : List Text) :
    ∃ declared, (unusedDependencies tree root settings used).result = .ok declared := by
  rcases load_cases stored with ⟨-, ⟨declared, loaded⟩ | ⟨named, reason, refused⟩⟩ | ⟨unmanageable, -⟩
  · exact ⟨_, unusedDependencies_of_loaded texts loaded used⟩
  · simp only [unusedDependencies, Noted.result_bind, Outcome.result_outcome, Except.bind, refused]
    exact ⟨none, rfl⟩
  · exact absurd manageable unmanageable

theorem unusedDependencies_of_unmanageable
    (stored : tree.stat (root.append (Path.Parsed.ofText Manifest.fileName)) = .ok (.file content))
    (unmanageable : ¬ Manifest.IsManageable content) (settings : Settings) (used : List Text) :
    ∃ fault, (unusedDependencies tree root settings used).result = .error (.fault fault) := by
  rcases load_cases stored with ⟨manageable, -⟩ | ⟨-, fault, failed⟩
  · exact absurd manageable unmanageable
  · refine ⟨fault, ?_⟩
    simp only [unusedDependencies, Noted.result_bind, Outcome.result_outcome, Except.bind, failed]
    rfl

theorem load_manageable_iff
    (stored : tree.stat (root.append (Path.Parsed.ofText Manifest.fileName)) = .ok (.file content)) :
    ((∃ declared, (Manifest.load tree root).result = .ok (some declared)) ∨
      ∃ named reason, (Manifest.load tree root).result = .error (.badManifest named reason)) ↔
        Manifest.IsManageable content := by
  rcases load_cases stored with ⟨manageable, contained⟩ | ⟨unmanageable, fault, failed⟩
  · exact iff_of_true contained manageable
  · exact iff_of_false (by simp [failed]) unmanageable

/-- Where the manifest of a folder stands, the folder does too, and nothing else is gone with it. -/
theorem root_of_manifest
    (leads : tree.locate (root.append (Path.Parsed.ofText Manifest.fileName)) = .ok place)
    (file : tree.entry? place = some (.file content)) :
    ∃ here, tree.locate root = .ok here ∧ here ≠ place ∧ tree.isFolder root = true ∧
      (tree.erase place).isFolder root = true := by
  obtain ⟨-, here, located, walked⟩ := (FileTree.locate_append (by decide)).mp leads
  have folder : tree.entry? here = some .folder := by
    simp only [show (Path.Parsed.ofText Manifest.fileName).names = [Manifest.fileName] by decide,
      FileTree.walk] at walked
    split at walked
    case h_1 folder => exact folder
    case h_2 => cases walked
    case h_3 => cases walked
  have other : here ≠ place := by
    rintro rfl
    rw [file] at folder
    cases folder
  exact ⟨here, located, other, FileTree.isFolder_iff.mpr ⟨here, located, folder⟩, FileTree.isFolder_iff.mpr
    ⟨here, (FileTree.locate_erase file).mpr located, (FileTree.entry?_erase other).trans folder⟩⟩

theorem cleaning_congr {unused : List Text} (files : ∀ file ∈ unused, FileTree.IsNameable file) (tree other : FileTree)
    (root : Path.Parsed) (settings : Settings) :
    cleaning tree root settings unused = cleaning other root settings unused := by
  simp only [cleaning, Cleanup.clean_ends_alike files tree other]

/-- A project in the folder `p`: a script that imports the module beside it, and a manifest. -/
def heldTree (manifest : Bytes) : FileTree where
  here := []
  entries := (sampleTree "import './used'" ["used.ts"]).entries ++
    [([("p" : Text), Manifest.fileName], .file { bytes := manifest })]

/-- An array that is not closed. -/
def unclosed : Bytes := "[1,".toList.map fun c => c.toNat.toUInt8

/-- The lists of a run, or its failure. -/
def listsView (_ : Settings) (_ : Except Failure Discovery) (outcome : Except Failure (Report × FileTree)) :
    Except Failure (List Text × List Text × List Text) := outcome.map lists

set_option maxRecDepth 100000 in
theorem sampleRun_unclosed : sampleRun (heldTree unclosed) [] listsView =
    some (.ok (["src/used.ts"].map Text.ofString, [], ["src/main.ts"].map Text.ofString)) := by
  simp only [sampleRun, run, ledgerOf, Discovery.scan, Discovery.select, Settings.ignoredSuffixes,
    Text.sortedSet, Text.mergeSort_eq_insertionSort]
  decide +kernel

set_option maxRecDepth 100000 in
theorem ofLayer_defaults : ∃ settings, Settings.ofLayer [] = .ok settings ∧
    settings.scriptPatterns = Setting.scriptPatterns.default ∧
    settings.stylePatterns = Setting.stylePatterns.default ∧ settings.ignoreDependencies = .list [] :=
  ⟨_, rfl, rfl, rfl, rfl⟩

set_option maxRecDepth 100000 in
theorem avoids_unclosed (scripted : settings.scriptPatterns = Setting.scriptPatterns.default)
    (styled : settings.stylePatterns = Setting.stylePatterns.default) :
    Discovery.Avoids (heldTree unclosed) ((heldTree unclosed).resolve sampleRoot) settings
      [("p" : Text), Manifest.fileName] := by
  have root : Discovery.locationOf (heldTree unclosed) ((heldTree unclosed).resolve sampleRoot) = [("p" : Text)] := by
    decide
  have elsewhere : ∀ text ∈ defaultPatterns, (GlobSegment.ofText text).toOption.all fun pattern =>
      ∀ names ∈ (heldTree unclosed).select pattern [("p" : Text)] [],
        FileTree.descend [("p" : Text)] names ≠ [("p" : Text), Manifest.fileName] := by
    decide +kernel
  intro patterns either values items value among pattern read names selected leads
  obtain ⟨text, rfl, parsed⟩ := Discovery.patternOf_eq_ok read
  have missed := elsewhere text (mem_defaultPatterns scripted styled ⟨patterns, values, either, items, among⟩)
  rw [parsed] at missed
  rw [root] at selected leads
  exact absurd leads (of_decide_eq_true missed names selected)

set_option maxRecDepth 100000 in
theorem sampleRun_no_text : sampleRun (heldTree [0xFF]) [] listsView = some (.error (.fault .undecodable)) ∧
    sampleRun ((heldTree [0xFF]).erase [("p" : Text), Manifest.fileName]) [] listsView =
      some (.ok (["src/used.ts"].map Text.ofString, [], ["src/main.ts"].map Text.ofString)) := by
  simp only [sampleRun, run, ledgerOf, Discovery.scan, Discovery.select, Settings.ignoredSuffixes,
    Text.sortedSet, Text.mergeSort_eq_insertionSort]
  constructor <;> decide +kernel

end Analysis

end Deadwood
