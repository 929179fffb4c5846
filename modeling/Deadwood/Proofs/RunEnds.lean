import Deadwood.Proofs.BackupFolder
import Deadwood.Proofs.LedgerHistory
import Deadwood.Proofs.Manifest
import Deadwood.Proofs.SearchLimits

/-!
# Runs that end in a report

Settings that pass their checks can still stop a run, since four of them are
used for the first time in the middle of it: the patterns, the size limit, the
ignore lines and the backup folder.  The stages are taken one by one, each with
the condition under which it ends.  Together they say exactly which runs end in
a report; for plain settings and a tree with room, all of them do.
-/

namespace Deadwood

/-! ## Scans that end -/

namespace Discovery

variable {tree : FileTree} {root : Path.Parsed} {here : Location} {settings : Settings}
  {limit : Except Fault Int} {folder path : Text} {patterns : Value} {paths : List Text}

/-- A pattern for scripts or one for stylesheets selects the file at a path. -/
def IsFound (tree : FileTree) (root : Path.Parsed) (settings : Settings) (path : Text) : Prop :=
  Selected tree (locationOf tree root) settings.backupFolder settings.scriptPatterns path ∨
    Selected tree (locationOf tree root) settings.backupFolder settings.stylePatterns path

/-- Files are read unless there is one to read and no limit to compare its size with. -/
theorem exists_readAll_iff
    (stored : ∀ path ∈ paths, ∃ content, tree.file (root.append (Path.Parsed.ofText path)) = .ok content) :
    (∃ read, (readAll tree root limit paths).result = .ok read) ↔
      ∀ path ∈ paths, ∃ most, limit = .ok most := by
  have each : ∀ path ∈ paths, (∃ outcome, readSource tree root limit path = .ok outcome) ↔
      ∃ most, limit = .ok most := by
    intro path member
    obtain ⟨content, holds⟩ := stored path member
    simp [readSource_eq, holds, Outcome.map_eq_ok]
  constructor
  · rintro ⟨read, ran⟩ path member
    exact (each path member).mp (readSource_of_readAll ran path member)
  · intro limited
    apply exists_readAll
    intro path member
    exact (each path member).mpr (limited path member)

/-- A scan ends exactly if every pattern can be searched for and, once a file is found, its size has a
limit. -/
theorem exists_scan_iff (scripted : ∃ texts, settings.scriptPatterns = .texts texts)
    (styled : ∃ texts, settings.stylePatterns = .texts texts) (proper : tree.Proper)
    (located : tree.locate root = .ok here) :
    (∃ sources, (scan tree root settings).result = .ok sources) ↔
      (∀ text, IsPattern settings (.text text) → IsSearchable tree root text) ∧
        ∀ path, IsFound tree root settings path → ∃ most, settings.maxBytes = .ok most := by
  -- What is selected can be read, as far as the limit allows.
  have reads : ∀ {patterns paths}, select tree root settings.backupFolder patterns = .ok paths →
      ((∃ read, (readAll tree root settings.maxBytes paths).result = .ok read) ↔
        ∀ path ∈ paths, ∃ most, settings.maxBytes = .ok most) := by
    intro patterns paths selected
    apply exists_readAll_iff
    intro path member
    obtain ⟨names, location, content, leadsTo⟩ := leadsTo_of_select proper located selected member
    exact ⟨content, FileTree.file_eq_ok.mpr (FileTree.stat_eq_ok.mpr ⟨location, leadsTo.leads, leadsTo.stands⟩)⟩
  constructor
  · rintro ⟨sources, ran⟩
    obtain ⟨scriptPaths, _, stylePaths, _, selectedScripts, readScripts, selectedStyles, readStyles, -⟩ :=
      scan_stages ran
    constructor
    · rintro text ⟨_, values, rfl | rfl, items, member⟩
      · exact (exists_select_iff scripted).mp ⟨_, selectedScripts⟩ values items text member
      · exact (exists_select_iff styled).mp ⟨_, selectedStyles⟩ values items text member
    · intro path found
      rcases found with script | stylesheet
      · exact (reads selectedScripts).mp ⟨_, readScripts⟩ path ((mem_select selectedScripts).mpr script)
      · exact (reads selectedStyles).mp ⟨_, readStyles⟩ path ((mem_select selectedStyles).mpr stylesheet)
  · rintro ⟨searchable, limited⟩
    obtain ⟨scriptPaths, selectedScripts⟩ :
        ∃ paths, select tree root settings.backupFolder settings.scriptPatterns = .ok paths := by
      apply (exists_select_iff scripted).mpr
      intro values items text member
      exact searchable text ⟨_, values, .inl rfl, items, member⟩
    obtain ⟨stylePaths, selectedStyles⟩ :
        ∃ paths, select tree root settings.backupFolder settings.stylePatterns = .ok paths := by
      apply (exists_select_iff styled).mpr
      intro values items text member
      exact searchable text ⟨_, values, .inr rfl, items, member⟩
    obtain ⟨scripts, readScripts⟩ := (reads selectedScripts).mpr fun path member =>
      limited path (.inl ((mem_select selectedScripts).mp member))
    obtain ⟨styles, readStyles⟩ := (reads selectedStyles).mpr fun path member =>
      limited path (.inr ((mem_select selectedStyles).mp member))
    simp only [scan, Noted.result_bind, Noted.liftFault, Noted.result_lift, Noted.result_note,
      selectedScripts, readScripts, selectedStyles, readStyles, Except.mapError, Except.bind]
    exact ⟨_, rfl⟩

end Discovery

/-! ## Unused files that can be told -/

theorem Withheld.exists_holds_iff {suffixes lines : List Text} {path : Text} :
    (∃ answer, { suffixes, lines := .ok lines : Withheld }.holds path = .ok answer) ↔
      ((∀ suffix ∈ suffixes, ¬ suffix <:+ Text.lower path) → ∀ line ∈ lines, Ignore.IsReadable line) := by
  have ends : (suffixes.any (Text.endsWith (Text.lower path)) = true) ↔
      ¬ ∀ suffix ∈ suffixes, ¬ suffix <:+ Text.lower path := by
    simp [Text.endsWith_iff]
  simp only [Withheld.holds]
  split
  case isTrue suffixed =>
    apply iff_of_true ⟨_, rfl⟩
    intro free
    exact absurd free (ends.mp suffixed)
  case isFalse free =>
    rw [ends, not_not] at free
    rw [imp_iff_right free, ← Ignore.exists_parsePatterns_iff]
    simp only [Ignore.isIgnored, bind, Except.bind]
    cases Ignore.parsePatterns lines with
    | error fault => simp
    | ok patterns => simp [pure, Except.pure]

namespace Ledger

variable {ledger : Ledger} {suffixes lines : List Text}

/-- The unused files of a closed ledger are known unless a file is left over whose fate depends on a line
that cannot be read. -/
theorem exists_unusedFiles_iff (withheld : ledger.withheld = { suffixes, lines := .ok lines })
    (closed : ledger.complete = true) :
    (∃ unused, ledger.unusedFiles = .ok unused) ↔
      ∀ path ∈ ledger.files, path ∉ ledger.referenced →
        (∀ suffix ∈ suffixes, ¬ suffix <:+ Text.lower path) → ∀ line ∈ lines, Ignore.IsReadable line := by
  have tests : ∀ path, (∃ passed, ((!·) <$> ledger.withheld.holds path : Except Fault Bool) = .ok passed) ↔
      ((∀ suffix ∈ suffixes, ¬ suffix <:+ Text.lower path) → ∀ line ∈ lines, Ignore.IsReadable line) := by
    intro path
    rw [withheld, ← Withheld.exists_holds_iff]
    cases { suffixes, lines := .ok lines : Withheld }.holds path with
    | error fault => simp [Functor.map, Except.map]
    | ok answer => simp [Functor.map, Except.map]
  have filtered : (∃ unused, ledger.unusedFiles = .ok unused) ↔
      ∃ kept, (ledger.files.filter (!ledger.referenced.contains ·)).filterM
        (fun path => (!·) <$> ledger.withheld.holds path) = .ok kept := by
    simp only [unusedFiles, closed, Bool.not_true, Bool.false_eq_true, if_false]
    split
    case h_1 kept ran => exact iff_of_true ⟨kept, rfl⟩ ⟨kept, ran⟩
    case h_2 fault failed =>
      rw [failed]
      simp [throw, throwThe, MonadExceptOf.throw]
  rw [filtered]
  constructor
  · rintro ⟨kept, ran⟩ path scanned unreferenced
    apply (tests path).mp
    exact (Outcome.mem_of_filterM ran).2 path (by simpa using ⟨scanned, unreferenced⟩)
  · intro readable
    apply Outcome.exists_filterM
    intro path candidate
    apply (tests path).mpr
    obtain ⟨scanned, unreferenced⟩ := List.mem_filter.mp candidate
    exact readable path scanned (by simpa using unreferenced)

end Ledger

/-! ## Runs that end -/

namespace Analysis

variable {tree : FileTree} {path root : Path.Parsed} {settings : Settings} {files : List Text}
  {sources : Discovery} {file : Text}

/-- No reference that is written in a project is resolved to a file. -/
def IsLeftOver (tree : FileTree) (root : Path.Parsed) (settings : Settings) (files : List Text)
    (file : Text) : Prop :=
  ∀ reference, Written tree root settings reference →
    (resolverOf root settings files).project.resolve reference ≠ .projectFile file

/-- A file has one of the extensions that are never reported. -/
def HasIgnoredExtension (settings : Settings) (file : Text) : Prop :=
  ∃ values extension, settings.ignoreExtensions.items = .ok values ∧ Value.text extension ∈ values ∧
    Codepoint.char '.' :: Text.lower (Text.trimStartBy (· = Codepoint.char '.') extension) <:+
      Text.lower file

/-- A line is among the ignore lines. -/
def IsIgnoreLine (settings : Settings) (line : Text) : Prop :=
  ∃ values, settings.ignoreFiles.items = .ok values ∧ Value.text line ∈ values

/-- What a run over a project without a manifest needs to end. -/
structure IsRunnable (tree : FileTree) (root : Path.Parsed) (settings : Settings) : Prop where
  /-- Every pattern can be searched for. -/
  patterns : ∀ text, Discovery.IsPattern settings (.text text) → Discovery.IsSearchable tree root text
  /-- The path of a manifest is not too long to ask for. -/
  manifest : FileTree.isLong (root.append (Path.Parsed.ofText Manifest.fileName)) = false
  /-- Once a file is found, the size limit is a finite number of bytes. -/
  limit : ∀ file, Discovery.IsFound tree root settings file →
    ∀ number, settings.sizeLimit = .float number → number.Scales
  /-- Once a file is left over that has no ignored extension, all ignore lines can be read. -/
  lines : ∀ sources, (Discovery.scan tree root settings).result = .ok sources →
    ∀ file ∈ sources.files, IsLeftOver tree root settings sources.files file →
      ¬ HasIgnoredExtension settings file → ∀ line, IsIgnoreLine settings line → Ignore.IsReadable line
  /-- Once a file has to be moved, the backup folder is one that a path can name. -/
  folder : ∀ sources, (Discovery.scan tree root settings).result = .ok sources →
    settings.deleteUnused.isTruthy = true →
    ∀ file ∈ sources.files, IsLeftOver tree root settings sources.files file →
      ¬ Withholds settings file → FileTree.IsNameable settings.backupFolder

theorem exists_ignoredSuffixes (typed : settings.IsTyped) :
    ∃ suffixes, settings.ignoredSuffixes = .ok suffixes := by
  obtain ⟨texts, given⟩ := typed.ignoreExtensions
  have items : settings.ignoreExtensions.items = .ok (texts.map Value.text) := by
    rw [given]
    rfl
  simp only [Settings.ignoredSuffixes, items, bind, Outcome.bind_eq_ok, Except.ok.injEq, exists_eq_left']
  apply exists_comm.mp
  refine (Outcome.exists_mapM_iff.mpr ?_).imp fun read mapped => ⟨_, mapped, rfl⟩
  rw [List.forall_mem_map]
  intro extension _
  exact ⟨_, rfl⟩

/-- The suffixes of a ledger are those of the ignored extensions. -/
theorem hasIgnoredExtension_iff {suffixes : List Text} (suffixed : settings.ignoredSuffixes = .ok suffixes) :
    HasIgnoredExtension settings file ↔ ∃ suffix ∈ suffixes, suffix <:+ Text.lower file := by
  obtain ⟨values, items, members⟩ := mem_ignoredSuffixes suffixed
  simp only [HasIgnoredExtension, items, Except.ok.injEq, members]
  constructor
  · rintro ⟨_, extension, rfl, listed, ends⟩
    exact ⟨_, ⟨extension, listed, rfl⟩, ends⟩
  · rintro ⟨suffix, ⟨extension, listed, rfl⟩, ends⟩
    exact ⟨values, extension, rfl, listed, ends⟩

/-- What is entered into the ledger of a run with typed settings. -/
theorem exists_ledger (typed : settings.IsTyped) (files : List Text) (resolutions : List Resolution) :
    ∃ ledger suffixes lines, ledgerOf settings files resolutions = .ok ledger ∧
      settings.ignoredSuffixes = .ok suffixes ∧ settings.ignoreFiles = .texts lines ∧
      ledger.withheld = { suffixes, lines := .ok lines } ∧ ledger.complete = true ∧
      (∀ file, file ∈ ledger.files ↔ file ∈ files) ∧
      ∀ file, file ∈ ledger.referenced ↔ .projectFile file ∈ resolutions := by
  obtain ⟨suffixes, suffixed⟩ := exists_ignoredSuffixes typed
  obtain ⟨lines, given⟩ := typed.ignoreFiles
  have lined : settings.ignoredLines = .ok (.ok lines) := by
    rw [ignoredLines_eq_ok, given]
    rfl
  refine ⟨((Ledger.start files { suffixes, lines := .ok lines }).addAll resolutions).close, suffixes, lines,
    ?_, suffixed, given, ?_, rfl, ?_, ?_⟩
  · simp only [ledgerOf, suffixed, lined, bind, Except.bind]
    rfl
  · simp [Ledger.close, Ledger.start]
  · intro file
    simp [Ledger.close, Ledger.mem_files_start]
  · intro file
    simp [Ledger.close, Ledger.mem_referenced_addAll, Ledger.start]

/-- Cleaning up ends if nothing is to be moved, or the backup folder can be named. -/
theorem exists_cleaned_iff {unused : List Text} (tree : FileTree) (root : Path.Parsed)
    (below : ∀ file ∈ unused, FileTree.IsNameable file ∧
      (Path.Parsed.ofText file).slashes = 0 ∧ (Path.Parsed.ofText file).names ≠ []) :
    (∃ cleaned, (if settings.deleteUnused.isTruthy then
        Cleanup.clean tree root unused settings.backupFolder
      else pure (tree, [])).result = .ok cleaned) ↔
        (settings.deleteUnused.isTruthy = true → unused ≠ [] →
          FileTree.IsNameable settings.backupFolder) := by
  split
  case isTrue moves => rw [Cleanup.exists_clean_iff below, imp_iff_right moves]
  case isFalse stays =>
    apply iff_of_true ⟨_, rfl⟩
    intro moves
    exact absurd moves stays

/-- Where there is no manifest, asking for one ends exactly if its path is not too long. -/
theorem exists_unusedDependencies_iff_of_bare {here : Location} {used : List Text}
    (located : tree.locate root = .ok here) (folder : tree.entry? here = some .folder)
    (bare : tree.isFile (root.append (Path.Parsed.ofText Manifest.fileName)) = false) :
    (∃ declared, (unusedDependencies tree root settings used).result = .ok declared) ↔
      FileTree.isLong (root.append (Path.Parsed.ofText Manifest.fileName)) = false := by
  cases long : FileTree.isLong (root.append (Path.Parsed.ofText Manifest.fileName)) with
  | true =>
    have refused : tree.stat (root.append (Path.Parsed.ofText Manifest.fileName)) = .error .nameTooLong := by
      simp only [FileTree.stat, FileTree.locate, long, if_true]
      rfl
    simp [unusedDependencies, Manifest.load, refused, Except.bind]
  | false =>
    refine iff_of_true ⟨none, unusedDependencies_of_missing bare ?_⟩ rfl
    -- The folder can be asked for a name as short as this one.
    have single : (Path.Parsed.ofText Manifest.fileName).names = [Manifest.fileName] := by decide
    have short : FileTree.isTooLong Manifest.fileName = false := by decide
    obtain ⟨place, leads⟩ :
        ∃ place, tree.locate (root.append (Path.Parsed.ofText Manifest.fileName)) = .ok place := by
      rw [FileTree.locate_append_of_short (by decide) long located, single]
      simp only [FileTree.walk, folder, short, Bool.false_eq_true, if_false]
      exact ⟨_, rfl⟩
    simp only [FileTree.stat, leads, bind, Except.bind]
    cases tree.entry? place <;> simp [pure, Except.pure, throw, throwThe, MonadExceptOf.throw]

/-- Without a manifest, a run whose sources are scanned ends if its unused files are known, a manifest can be asked for,
and the files can be moved. -/
theorem exists_run_iff_of_ledger {scripts stylesheets : Findings} {ledger : Ledger} (proper : tree.Proper)
    (folder : tree.isFolder (tree.resolve path) = true)
    (bare : tree.isFile ((tree.resolve path).append (Path.Parsed.ofText Manifest.fileName)) = false)
    (scanned : (Discovery.scan tree (tree.resolve path) settings).result = .ok sources)
    (scannedScripts : (scanScripts (resolverOf (tree.resolve path) settings sources.files)
      sources.scripts).result = .ok scripts)
    (scannedStyles : (scanStylesheets (resolverOf (tree.resolve path) settings sources.files)
      sources.stylesheets).result = .ok stylesheets)
    (entered : ledgerOf settings sources.files (scripts.resolutions ++ stylesheets.resolutions) =
      .ok ledger) :
    (∃ outcome, (run tree path settings).result = .ok outcome) ↔
      FileTree.isLong ((tree.resolve path).append (Path.Parsed.ofText Manifest.fileName)) = false ∧
      ∃ unused, ledger.unusedFiles = .ok unused ∧ (settings.deleteUnused.isTruthy = true →
        unused ≠ [] → FileTree.IsNameable settings.backupFolder) := by
  obtain ⟨located, stands⟩ := root_of_isFolder folder
  have cleans : ∀ unused, ledger.unusedFiles = .ok unused →
      ((∃ cleaned, (if settings.deleteUnused.isTruthy then
          Cleanup.clean tree (tree.resolve path) unused settings.backupFolder
        else pure (tree, [])).result = .ok cleaned) ↔ (settings.deleteUnused.isTruthy = true → unused ≠ [] →
          FileTree.IsNameable settings.backupFolder)) := by
    intro unused reported
    apply exists_cleaned_iff
    intro file listed
    have found := ((mem_unused_of_entered entered reported).mp listed).1
    obtain ⟨names, location, content, leadsTo⟩ := Discovery.leadsTo_of_scan proper located scanned found
    exact ⟨leadsTo.nameable, leadsTo.below stands⟩
  rw [run_result, if_neg (by simp [folder])]
  simp only [bind, Outcome.bind_eq_ok, Outcome.mapError_eq_ok, scanned, Except.ok.injEq, exists_eq_left',
    scannedScripts, scannedStyles, entered]
  constructor
  · rintro ⟨outcome, unused, reported, declared, compared, cleaned, ended, -⟩
    exact ⟨(exists_unusedDependencies_iff_of_bare located stands bare).mp ⟨declared, compared⟩, unused, reported,
      (cleans unused reported).mp ⟨cleaned, ended⟩⟩
  · rintro ⟨short, unused, reported, nameable⟩
    obtain ⟨declared, compared⟩ := (exists_unusedDependencies_iff_of_bare located stands bare).mpr short
    obtain ⟨cleaned, ended⟩ := (cleans unused reported).mpr nameable
    exact ⟨_, unused, reported, declared, compared, cleaned, ended, rfl⟩

/-- After the scan a run ends unless the ignore lines, the path of a manifest or the backup folder stop it. -/
theorem exists_run_iff_of_scan (typed : settings.IsTyped) (proper : tree.Proper)
    (folder : tree.isFolder (tree.resolve path) = true)
    (bare : tree.isFile ((tree.resolve path).append (Path.Parsed.ofText Manifest.fileName)) = false)
    (scanned : (Discovery.scan tree (tree.resolve path) settings).result = .ok sources) :
    (∃ outcome, (run tree path settings).result = .ok outcome) ↔
      FileTree.isLong ((tree.resolve path).append (Path.Parsed.ofText Manifest.fileName)) = false ∧
      (∀ file ∈ sources.files, IsLeftOver tree (tree.resolve path) settings sources.files file →
        ¬ HasIgnoredExtension settings file →
          ∀ line, IsIgnoreLine settings line → Ignore.IsReadable line) ∧
      (settings.deleteUnused.isTruthy = true → ∀ file ∈ sources.files,
        IsLeftOver tree (tree.resolve path) settings sources.files file → ¬ Withholds settings file →
          FileTree.IsNameable settings.backupFolder) := by
  obtain ⟨start, aliased⟩ := typed.aliasStart
  have accepts : ∀ references,
      (resolverOf (tree.resolve path) settings sources.files).accepts references = true := by
    simp [Resolver.accepts, resolverOf, aliased, Value.text?]
  obtain ⟨scripts, scannedScripts⟩ :=
    exists_scanScripts (accepts (sources.scripts.flatMap scriptReferences))
  obtain ⟨stylesheets, scannedStyles⟩ :=
    exists_scanStylesheets (accepts (sources.stylesheets.flatMap styleReferences))
  obtain ⟨ledger, suffixes, lines, entered, suffixed, given, withheld, closed, listed, referenced⟩ :=
    exists_ledger typed sources.files (scripts.resolutions ++ stylesheets.resolutions)
  have leftOver : ∀ file, IsLeftOver tree (tree.resolve path) settings sources.files file ↔
      .projectFile file ∉ scripts.resolutions ++ stylesheets.resolutions := by
    intro file
    rw [mem_resolutions (Discovery.scan_finds scanned) scannedScripts scannedStyles]
    simp [IsLeftOver]
  have known : (∃ unused, ledger.unusedFiles = .ok unused) ↔
      ∀ file ∈ sources.files, IsLeftOver tree (tree.resolve path) settings sources.files file →
        ¬ HasIgnoredExtension settings file →
          ∀ line, IsIgnoreLine settings line → Ignore.IsReadable line := by
    have asked : ∀ line, IsIgnoreLine settings line ↔ line ∈ lines := by
      simp [IsIgnoreLine, given, Value.texts, Value.items, pure, Except.pure]
    rw [Ledger.exists_unusedFiles_iff withheld closed]
    simp only [listed, referenced, leftOver, hasIgnoredExtension_iff suffixed, asked, not_exists, not_and]
  have moved : ∀ unused, ledger.unusedFiles = .ok unused → (unused ≠ [] ↔ ∃ file ∈ sources.files,
      IsLeftOver tree (tree.resolve path) settings sources.files file ∧ ¬ Withholds settings file) := by
    intro unused reported
    rw [ne_eq, List.eq_nil_iff_forall_not_mem]
    simp only [mem_unused_of_entered entered reported, leftOver]
    grind
  rw [exists_run_iff_of_ledger proper folder bare scanned scannedScripts scannedStyles entered]
  refine and_congr_right fun _ => ?_
  constructor
  · rintro ⟨unused, reported, cleans⟩
    constructor
    · exact known.mp ⟨unused, reported⟩
    · intro moves file found left free
      exact cleans moves ((moved unused reported).mpr ⟨file, found, left, free⟩)
  · rintro ⟨readable, nameable⟩
    obtain ⟨unused, reported⟩ := known.mpr readable
    refine ⟨unused, reported, ?_⟩
    intro moves some
    obtain ⟨file, found, left, free⟩ := (moved unused reported).mp some
    exact nameable moves file found left free

/-- Settings that let every run over a tree with room end, told from the settings alone. -/
structure IsPlain (settings : Settings) : Prop where
  patterns : ∀ text, Discovery.IsPattern settings (.text text) → GlobSegment.IsRelative text ∧
    ∀ name ∈ Path.properSegments text, name ≠ Path.up ∧ FileTree.isTooLong name = false
  limit : ∀ number, settings.sizeLimit = .float number → number.Scales
  lines : ∀ line, IsIgnoreLine settings line → Ignore.IsPlain line ∧ Text.trim line ≠ "!"
  folder : FileTree.IsNameable settings.backupFolder

theorem IsPlain.isRunnable (plain : IsPlain settings) (wellNamed : tree.WellNamed) (room : tree.HasRoom)
    (folder : tree.isFolder (tree.resolve path) = true) : IsRunnable tree (tree.resolve path) settings := by
  obtain ⟨located, stands⟩ := root_of_isFolder folder
  constructor
  · intro text given
    obtain ⟨relative, names⟩ := plain.patterns text given
    exact Discovery.isSearchable_of_room wellNamed room rfl located stands relative
      (fun listed => (names Path.up listed).1 rfl) fun name listed => (names name listed).2
  · have single : Path.Parsed.ofText Manifest.fileName = ⟨0, [] ++ [Manifest.fileName]⟩ := by decide
    rw [single]
    exact room.not_isLong rfl (by rwa [List.append_nil]) (by decide) (by decide)
  · intro file found
    exact plain.limit
  · intro sources scanned file found left free line given
    obtain ⟨simple, worded⟩ := plain.lines line given
    exact simple.isReadable worded
  · intro sources scanned moves file found left free
    exact plain.folder

/-- Ignore lines for a folder, for scripts that are taken back, and a remark. -/
def carefulLines : List Text := ["old/", "!src/**/*.ts", " # x"].map Text.ofString

/-- A layer with a limit of half a unit, some ignore lines, and a folder for unused files. -/
def carefulLayer : Layer :=
  [("max_file_size_mb", .float (.ofRatio false 1 2)), ("delete_unused", .bool true),
    ("backup_dir", .text "bk"), ("ignore_files", .texts carefulLines)]

set_option maxRecDepth 100000 in
theorem ofLayer_careful : ∃ settings, Settings.ofLayer carefulLayer = .ok settings ∧
    settings.scriptPatterns = Setting.scriptPatterns.default ∧
    settings.stylePatterns = Setting.stylePatterns.default ∧
    settings.sizeLimit = .float (.ofRatio false 1 2) ∧ settings.backupFolder = "bk" ∧
    settings.ignoreFiles = .texts carefulLines :=
  ⟨_, rfl, rfl, rfl, rfl, rfl, rfl⟩

/-- Layers that are accepted, and the faults with which they stop a run: no limit, an empty pattern, an
ignore line that takes back nothing, and a backup folder that no path can name. -/
def stops : List (Layer × Fault) :=
  [([("max_file_size_mb", .float (.infinite false))], .tooLarge),
    ([("script_patterns", .texts [[]])], .badValue),
    ([("ignore_files", .texts [("!" : Text)])], .badIgnorePattern),
    ([("delete_unused", .bool true), ("backup_dir", .text "\x00")], .badValue)]

/-- The failure of a run. -/
def failureView (_ : Settings) (_ : Except Failure Discovery) (outcome : Except Failure (Report × FileTree)) :
    Except Failure Unit := outcome.map fun _ => ()

set_option maxRecDepth 100000 in
theorem sampleRun_stops :
    ∀ stop ∈ stops, sampleRun orphanTree stop.1 failureView = some (.error (.fault stop.2)) := by
  simp only [sampleRun, run, ledgerOf, Discovery.scan, Discovery.select, Settings.ignoredSuffixes,
    Cleanup.clean, Text.sortedSet, Text.mergeSort_eq_insertionSort]
  decide +kernel

end Analysis

end Deadwood
