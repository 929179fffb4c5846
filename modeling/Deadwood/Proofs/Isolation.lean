import Deadwood.Proofs.LedgerHistory
import Deadwood.Proofs.Outline
import Deadwood.Proofs.Selection
import Deadwood.Proofs.Stages

/-!
# Files that cannot be used

A file that is too large or may not be read, or a script that cannot be parsed,
counts as an empty file: the report and the moved files are the same, and only the list of skipped
files tells the difference.  Both runs are compared through what a scan hands
on to the later stages, which is the same for unusable and for empty contents.
-/

namespace Deadwood

/-! ## Trees with other contents -/

namespace Discovery

variable {tree : FileTree} {contents : Location → Option FileContent} {root : Path.Parsed}
  {settings : Settings} {path text : Text} {limit : Except Fault Int} {location : Location}

theorem locationOf_rewrite (tree : FileTree) (contents : Location → Option FileContent)
    (root : Path.Parsed) : locationOf (tree.rewrite contents) root = locationOf tree root := by
  simp only [locationOf, FileTree.locate_rewrite]

theorem select_rewrite (tree : FileTree) (contents : Location → Option FileContent) (root : Path.Parsed)
    (folder : Text) (patterns : Value) :
    select (tree.rewrite contents) root folder patterns = select tree root folder patterns := by
  have searches : search (tree.rewrite contents) root = search tree root := by
    funext value
    simp only [search, locationOf_rewrite, FileTree.glob_rewrite, FileTree.visits_rewrite]
  simp only [select, searches]

theorem selected_rewrite {folder : Text} {patterns : Value} :
    Selected (tree.rewrite contents) location folder patterns path ↔
      Selected tree location folder patterns path := by
  simp only [Selected, FileTree.glob_rewrite]

/-- A file that patterns select, and the location that its path leads to. -/
structure Reaches (tree : FileTree) (root : Path.Parsed) (folder : Text) (patterns : Value)
    (path : Text) (location : Location) : Prop where
  selected : Selected tree (locationOf tree root) folder patterns path
  leads : tree.locate (root.append (Path.Parsed.ofText path)) = .ok location

/-- A content from which a file contributes nothing: it is too large or may not be read, or there are no references. -/
def Barren (limit : Except Fault Int) (references : Source → List Reference) (path : Text)
    (content : FileContent) : Prop :=
  (∃ most, limit = .ok most ∧ most < (content.bytes.length : Int)) ∨ content.isReadable = false ∨
    references ⟨path, textOf content.bytes⟩ = []

/-- The new contents, all of them empty. -/
def emptied (contents : Location → Option FileContent) (location : Location) : Option FileContent :=
  (contents location).map fun _ => { bytes := [] }

@[simp] theorem emptied_eq_none : emptied contents location = none ↔ contents location = none := by
  simp [emptied]

theorem yield_of_barren {references : Source → List Reference} {content : FileContent}
    (stored : tree.file (root.append (Path.Parsed.ofText path)) = .ok content)
    (barren : Barren limit references path content) :
    (readSource tree root limit path).map (yield references path) = limit.map fun _ => [] := by
  simp only [readSource_eq, stored]
  cases limit with
  | error fault => rfl
  | ok most =>
    simp only [Except.map, Except.ok.injEq]
    split
    case isTrue => rfl
    case isFalse small =>
      split
      case isFalse => rfl
      case isTrue readable =>
        rcases barren with ⟨other, same, large⟩ | denied | nothing
        · cases same
          exact absurd large small
        · simp [denied] at readable
        · exact nothing

theorem readSource_congr {other : FileTree}
    (same : tree.file (root.append (Path.Parsed.ofText path)) =
      other.file (root.append (Path.Parsed.ofText path))) :
    readSource tree root limit path = readSource other root limit path := by
  simp only [readSource_eq, same]

theorem file_rewrite_of_kept {place : Path.Parsed}
    (kept : ∀ location, tree.locate place = .ok location → contents location = none) :
    (tree.rewrite contents).file place = tree.file place := by
  rw [FileTree.file, FileTree.file, tree.stat_rewrite_of_kept contents kept]

/-- New contents from which a file contributes nothing can as well be empty. -/
theorem yield_rewrite {references : Source → List Reference} (blank : references ⟨path, []⟩ = [])
    (barren : ∀ location content, tree.locate (root.append (Path.Parsed.ofText path)) = .ok location →
      contents location = some content → Barren limit references path content) :
    (readSource (tree.rewrite contents) root limit path).map (yield references path) =
      (readSource (tree.rewrite (emptied contents)) root limit path).map (yield references path) := by
  rcases tree.replaced_or_kept contents (root.append (Path.Parsed.ofText path)) with
    ⟨location, content, leads, given⟩ | kept
  · have full := tree.file_rewrite_of_replaced contents leads given
    have empty := tree.file_rewrite_of_replaced (emptied contents) leads
      (by rw [emptied, given, Option.map_some])
    cases stored : tree.file (root.append (Path.Parsed.ofText path)) with
    | error fault =>
      rw [stored] at full empty
      rw [readSource_congr (full.trans empty.symm)]
    | ok old =>
      rw [stored] at full empty
      rw [yield_of_barren full (barren location content leads given),
        yield_of_barren empty (.inr (.inr blank))]
  · have full := file_rewrite_of_kept kept
    have empty : (tree.rewrite (emptied contents)).file (root.append (Path.Parsed.ofText path)) =
        tree.file (root.append (Path.Parsed.ofText path)) :=
      file_rewrite_of_kept fun location leads => emptied_eq_none.mpr (kept location leads)
    rw [readSource_congr (full.trans empty.symm)]

/-- A file that contributes something under new contents has kept its old content. -/
theorem reads_of_rewrite {references : Source → List Reference} {reference : Reference}
    (barren : ∀ location content, tree.locate (root.append (Path.Parsed.ofText path)) = .ok location →
      contents location = some content → Barren limit references path content)
    (reads : Reads (tree.rewrite contents) root limit path text)
    (member : reference ∈ references ⟨path, text⟩) : Reads tree root limit path text := by
  rw [← readSource_eq_ok] at reads ⊢
  rcases tree.replaced_or_kept contents (root.append (Path.Parsed.ofText path)) with
    ⟨location, content, leads, given⟩ | kept
  · obtain ⟨bytes, most, held, rfl, -, -⟩ := readSource_text reads
    obtain ⟨stored, status, -⟩ := FileTree.content_eq_ok.mp held
    have full := tree.file_rewrite_of_replaced contents leads given
    rw [FileTree.file_eq_ok.mpr status] at full
    obtain ⟨old, -, rfl⟩ := Outcome.map_eq_ok.mp full.symm
    have nothing := yield_of_barren (FileTree.file_eq_ok.mpr status) (barren location content leads given)
    rw [reads] at nothing
    simp only [Except.map, yield, Except.ok.injEq] at nothing
    simp [nothing] at member
  · rwa [readSource_congr (file_rewrite_of_kept kept)] at reads

/-- With new contents from which files contribute nothing, there are no further references. -/
theorem references_subset {references : Source → List Reference} {folder : Text} {patterns : Value}
    {sources others : List Source}
    (found : ∀ source, source ∈ sources ↔
      Selected tree (locationOf tree root) folder patterns source.path ∧
        Reads tree root limit source.path source.text)
    (refound : ∀ source, source ∈ others ↔
      Selected (tree.rewrite contents) (locationOf (tree.rewrite contents) root) folder patterns
        source.path ∧ Reads (tree.rewrite contents) root limit source.path source.text)
    (barren : ∀ file location content, Reaches tree root folder patterns file location →
      contents location = some content → Barren limit references file content) :
    ∀ reference ∈ others.flatMap references, reference ∈ sources.flatMap references := by
  intro reference member
  obtain ⟨source, listed, inside⟩ := List.mem_flatMap.mp member
  obtain ⟨selected, reads⟩ := (refound source).mp listed
  rw [selected_rewrite, locationOf_rewrite] at selected
  have kept := reads_of_rewrite (fun location content leads given =>
    barren source.path location content ⟨selected, leads⟩ given) reads inside
  exact List.mem_flatMap.mpr ⟨source, (found source).mpr ⟨selected, kept⟩, inside⟩

theorem exists_readSource_rewrite (contents : Location → Option FileContent)
    (read : ∃ outcome, readSource tree root limit path = .ok outcome) :
    ∃ outcome, readSource (tree.rewrite contents) root limit path = .ok outcome := by
  rcases tree.replaced_or_kept contents (root.append (Path.Parsed.ofText path)) with
    ⟨location, content, leads, given⟩ | kept
  · simp only [readSource_eq, tree.file_rewrite_of_replaced contents leads given] at read ⊢
    cases stored : tree.file (root.append (Path.Parsed.ofText path)) with
    | error fault => exact ⟨_, rfl⟩
    | ok old =>
      cases limit with
      | ok most => exact ⟨_, rfl⟩
      | error fault => simp [stored, Except.map] at read
  · rwa [readSource_congr (file_rewrite_of_kept kept)]

/-- A scan that ends also ends with other contents, and finds the same files. -/
theorem exists_scan_rewrite {sources : Discovery} (contents : Location → Option FileContent)
    (ran : (scan tree root settings).result = .ok sources) :
    ∃ others, (scan (tree.rewrite contents) root settings).result = .ok others ∧
      others.files = sources.files := by
  have done : (scan tree root settings).result.map gist = .ok sources.gist := by
    rw [ran]
    rfl
  rw [scan_gist] at done
  simp only [bind, Outcome.bind_eq_ok, Outcome.mapError_eq_ok, Outcome.map_eq_ok] at done
  obtain ⟨scriptPaths, scripted, _, ⟨scripts, readScripts, -⟩, stylePaths, styled, _,
    ⟨stylesheets, readStyles, -⟩, same⟩ := done
  obtain ⟨otherScripts, rereadScripts⟩ := exists_readAll fun path member =>
    exists_readSource_rewrite contents (readSource_of_readAll readScripts path member)
  obtain ⟨otherStyles, rereadStyles⟩ := exists_readAll fun path member =>
    exists_readSource_rewrite contents (readSource_of_readAll readStyles path member)
  have again := scan_gist (tree.rewrite contents) root settings
  simp only [select_rewrite, scripted, styled, Except.mapError, bind,
    Except.bind, rereadScripts, rereadStyles, Except.map] at again
  obtain ⟨others, rescanned, equal⟩ := Outcome.map_eq_ok.mp again
  refine ⟨others, rescanned, ?_⟩
  have files := congrArg Prod.fst equal
  have before := congrArg Prod.fst (Except.ok.inj same)
  exact files.trans before

end Discovery

namespace Analysis

variable {tree : FileTree} {contents : Location → Option FileContent} {root path : Path.Parsed}
  {settings : Settings} {report : Report} {after : FileTree} {file : Text} {location : Location}
  {content : FileContent}

/-! ## Unusable contents -/

/-- The path of a script leads to a location. -/
abbrev ReachesScript (tree : FileTree) (root : Path.Parsed) (settings : Settings) (file : Text)
    (location : Location) : Prop :=
  Discovery.Reaches tree root settings.backupFolder settings.scriptPatterns file location

/-- The path of a stylesheet leads to a location. -/
abbrev ReachesStyle (tree : FileTree) (root : Path.Parsed) (settings : Settings) (file : Text)
    (location : Location) : Prop :=
  Discovery.Reaches tree root settings.backupFolder settings.stylePatterns file location

/-- No file is selected as a script and as a stylesheet. -/
def Apart (tree : FileTree) (root : Path.Parsed) (settings : Settings) : Prop :=
  ∀ script stylesheet location, ReachesScript tree root settings script location →
    ¬ ReachesStyle tree root settings stylesheet location

/-- A content cannot be used at a location: it is too large, may not be read, or makes a script that is not parsed. -/
inductive Unusable (tree : FileTree) (root : Path.Parsed) (settings : Settings) (location : Location)
    (content : FileContent) : Prop where
  | large {most : Int} (limited : settings.maxBytes = .ok most) (exceeds : most < (content.bytes.length : Int))
  | denied (closed : content.isReadable = false)
  | refused {script : Text} (reached : ReachesScript tree root settings script location)
      (rejected : ∀ file, ReachesScript tree root settings file location →
        ∃ failure, Script.extract file (Discovery.textOf content.bytes) = .error failure)

/-- New contents for some files, none of which can be used; the manifest is spared. -/
structure Spoils (tree : FileTree) (root : Path.Parsed) (settings : Settings)
    (contents : Location → Option FileContent) : Prop where
  unusable : ∀ location content, contents location = some content →
    Unusable tree root settings location content
  spared : ∀ location, tree.locate (root.append (Path.Parsed.ofText Manifest.fileName)) =
    .ok location → contents location = none

theorem scriptReferences_nil (path : Text) : scriptReferences ⟨path, []⟩ = [] := by
  have nothing : ∀ dialect : Script.Dialect,
      Script.references dialect [] (Script.parse dialect []) = [] := by
    intro dialect
    cases dialect <;> rfl
  simp only [scriptReferences, Script.extract, Text.chars?, List.mapM_nil, pure, nothing,
    List.map_nil]
  split <;> rfl

theorem scriptReferences_of_error {path text : Text} {failure : Failure}
    (failed : Script.extract path text = .error failure) : scriptReferences ⟨path, text⟩ = [] := by
  simp [scriptReferences, failed, Except.toOption]

theorem Unusable.barren_script (unusable : Unusable tree root settings location content)
    (reached : ReachesScript tree root settings file location) :
    Discovery.Barren settings.maxBytes scriptReferences file content := by
  cases unusable with
  | large limited exceeds => exact .inl ⟨_, limited, exceeds⟩
  | denied closed => exact .inr (.inl closed)
  | refused _ rejected =>
    obtain ⟨failure, failed⟩ := rejected file reached
    exact .inr (.inr (scriptReferences_of_error failed))

theorem Unusable.barren_style (unusable : Unusable tree root settings location content)
    (apart : Apart tree root settings) (reached : ReachesStyle tree root settings file location) :
    Discovery.Barren settings.maxBytes styleReferences file content := by
  cases unusable with
  | large limited exceeds => exact .inl ⟨_, limited, exceeds⟩
  | denied closed => exact .inr (.inl closed)
  | refused script _ => exact absurd reached (apart _ file location script)

/-- A scan hands on the same of unusable and of empty contents. -/
theorem Spoils.scan_gist (spoils : Spoils tree root settings contents)
    (apart : Apart tree root settings) :
    (Discovery.scan (tree.rewrite contents) root settings).result.map Discovery.gist =
      (Discovery.scan (tree.rewrite (Discovery.emptied contents)) root settings).result.map
        Discovery.gist := by
  simp only [Discovery.scan_gist, Discovery.select_rewrite]
  cases scripted : Discovery.select tree root settings.backupFolder settings.scriptPatterns with
  | error fault => rfl
  | ok scriptPaths =>
    have scripts := Discovery.readAll_references_congr scriptReferences fun file member =>
      Discovery.yield_rewrite (scriptReferences_nil file) fun location content leads given =>
        (spoils.unusable location content given).barren_script
          ⟨(Discovery.mem_select scripted).mp member, leads⟩
    simp only [Except.mapError, bind, Except.bind]
    rw [scripts]
    cases styled : Discovery.select tree root settings.backupFolder settings.stylePatterns with
    | error fault => rfl
    | ok stylePaths =>
      have stylesheets := Discovery.readAll_references_congr styleReferences fun file member =>
        Discovery.yield_rewrite rfl fun location content leads given =>
          (spoils.unusable location content given).barren_style apart
            ⟨(Discovery.mem_select styled).mp member, leads⟩
      simp only
      rw [stylesheets]

theorem rootFailure_rewrite (tree : FileTree) (contents : Location → Option FileContent) (path : Path.Parsed) :
    rootFailure (tree.rewrite contents) path = rootFailure tree path := by
  simp only [rootFailure, FileTree.resolve_rewrite, FileTree.stat_rewrite]
  cases located : tree.locate (tree.resolve path) with
  | error fault => simp [FileTree.stat, located, bind, Except.bind]
  | ok location => cases tree.stat (tree.resolve path) <;> rfl

/-- The report and the moved files are those of a run in which the unusable files are empty. -/
theorem Spoils.run_digest (spoils : Spoils tree (tree.resolve path) settings contents)
    (apart : Apart tree (tree.resolve path) settings) :
    (run (tree.rewrite contents) path settings).result.map digest =
      (run (tree.rewrite (Discovery.emptied contents)) path settings).result.map digest := by
  have manifest : (tree.rewrite contents).stat
      ((tree.resolve path).append (Path.Parsed.ofText Manifest.fileName)) =
        (tree.rewrite (Discovery.emptied contents)).stat
          ((tree.resolve path).append (Path.Parsed.ofText Manifest.fileName)) := by
    rw [tree.stat_rewrite_of_kept contents spoils.spared, tree.stat_rewrite_of_kept _ fun
      location leads => Discovery.emptied_eq_none.mpr (spoils.spared location leads)]
  have moves : ∀ unused,
      (if settings.deleteUnused.isTruthy then
          Cleanup.clean (tree.rewrite contents) (tree.resolve path) unused settings.backupFolder
        else pure (tree.rewrite contents, [])).result.map Prod.snd =
      (if settings.deleteUnused.isTruthy then
          Cleanup.clean (tree.rewrite (Discovery.emptied contents)) (tree.resolve path) unused
            settings.backupFolder
        else pure (tree.rewrite (Discovery.emptied contents), [])).result.map Prod.snd := by
    intro unused
    split
    · apply Cleanup.clean_moved_congr
      rw [FileTree.outline_rewrite, FileTree.outline_rewrite]
    · rfl
  simp only [Analysis.run_digest, FileTree.isFolder_rewrite, FileTree.resolve_rewrite, rootFailure_rewrite,
    spoils.scan_gist apart, unusedDependencies_congr manifest, moves]

/-! ## Skipped files -/

theorem mem_failed_scanScripts {resolver : Resolver} {sources : List Source} {findings : Findings}
    (ran : (scanScripts resolver sources).result = .ok findings) {source : Source} {failure : Failure}
    (member : source ∈ sources) (failed : Script.extract source.path source.text = .error failure) :
    source.path ∈ findings.failed := by
  induction sources generalizing findings with
  | nil => cases member
  | cons first rest ih =>
    simp only [scanScripts] at ran
    split at ran
    case h_1 references parsed =>
      simp only [Noted.result_bind, Outcome.bind_eq_ok] at ran
      obtain ⟨-, -, resolutions, -, others, later, done⟩ := ran
      cases done
      rcases List.mem_cons.mp member with rfl | inside
      · rw [parsed] at failed
        cases failed
      · have below := ih later inside
        exact below
    case h_2 =>
      simp only [Noted.result_bind, Outcome.bind_eq_ok] at ran
      obtain ⟨-, -, others, later, done⟩ := ran
      cases done
      rcases List.mem_cons.mp member with rfl | inside
      · exact List.mem_cons_self
      · exact List.mem_cons_of_mem _ (ih later inside)
    case h_3 => cases ran

/-- A run lists the unusable files as skipped. -/
theorem Spoils.mem_skipped (spoils : Spoils tree (tree.resolve path) settings contents)
    (apart : Apart tree (tree.resolve path) settings)
    (ran : (run (tree.rewrite contents) path settings).result = .ok (report, after))
    (reached : ReachesScript tree (tree.resolve path) settings file location ∨
      ReachesStyle tree (tree.resolve path) settings file location)
    (given : contents location = some content) : file ∈ report.stats.skipped := by
  obtain ⟨sources, scripts, stylesheets, ledger, unused, declared, moved, scanned, scannedScripts, -,
    -, -, rfl⟩ := report_eq ran
  simp only [FileTree.resolve_rewrite] at scanned scannedScripts
  have finds := Discovery.scan_finds scanned
  have found : file ∈ sources.files := by
    rw [finds.files, Discovery.selected_rewrite, Discovery.selected_rewrite,
      Discovery.locationOf_rewrite]
    exact reached.imp (·.selected) (·.selected)
  have listed : file ∈ sources.skipped ∨ file ∈ scripts.failed := by
    obtain ⟨outcome, read⟩ := Discovery.readSource_of_scan scanned found
    cases outcome with
    | error reason => exact .inl ((Discovery.mem_skipped_scan scanned file).mpr ⟨found, reason, read⟩)
    | ok text =>
      -- The file was read, so it is small enough and open, and it is a script that is not parsed.
      have leads := reached.elim (·.leads) (·.leads)
      obtain ⟨bytes, most, held, limited, small, rfl⟩ := Discovery.readSource_text read
      obtain ⟨stored, status, readable, rfl⟩ := FileTree.content_eq_ok.mp held
      have full := tree.file_rewrite_of_replaced contents leads given
      rw [FileTree.file_eq_ok.mpr status] at full
      obtain ⟨old, -, rfl⟩ := Outcome.map_eq_ok.mp full.symm
      cases spoils.unusable location content given with
      | large most exceeds =>
        cases limited.symm.trans most
        exact absurd exceeds small
      | denied closed => simp [closed] at readable
      | refused script rejected =>
        have scripted := reached.resolve_right (apart _ file location script)
        obtain ⟨failure, failed⟩ := rejected file scripted
        refine .inr (mem_failed_scanScripts scannedScripts ((finds.scripts ⟨file, _⟩).mpr ?_) failed)
        rw [Discovery.selected_rewrite, Discovery.locationOf_rewrite]
        exact ⟨scripted.selected, Discovery.readSource_eq_ok.mp read⟩
  simp only [reportOf, List.mem_mergeSort, List.mem_append]
  exact .inl listed

/-! ## Runs that end -/

/-- What a run needs to end in a report whatever its files refer to: ignore settings that are texts,
ignore patterns that can be read, and a backup folder that a path can name. -/
structure Readable (settings : Settings) : Prop where
  files : ∃ (lines : List Text) (patterns : List Ignore.Pattern),
    settings.ignoreFiles.items = .ok (lines.map Value.text) ∧
      Ignore.parsePatterns lines = .ok patterns
  dependencies : ∃ names : List Text, settings.ignoreDependencies.items = .ok (names.map Value.text)
  folder : FileTree.IsNameable settings.backupFolder

/-- Unusable files refer to nothing that the others do not, so what is left of them can be resolved as well. -/
theorem Spoils.exists_findings {sources others : Discovery} {scripts stylesheets : Findings}
    (spoils : Spoils tree (tree.resolve path) settings contents) (apart : Apart tree (tree.resolve path) settings)
    (scanned : (Discovery.scan tree (tree.resolve path) settings).result = .ok sources)
    (rescanned : (Discovery.scan (tree.rewrite contents) (tree.resolve path) settings).result = .ok others)
    (scannedScripts : (scanScripts (resolverOf (tree.resolve path) settings sources.files)
      sources.scripts).result = .ok scripts)
    (scannedStyles : (scanStylesheets (resolverOf (tree.resolve path) settings sources.files)
      sources.stylesheets).result = .ok stylesheets) :
    (∃ findings, (scanScripts (resolverOf (tree.resolve path) settings sources.files)
      others.scripts).result = .ok findings) ∧
    ∃ findings, (scanStylesheets (resolverOf (tree.resolve path) settings sources.files)
      others.stylesheets).result = .ok findings := by
  have finds := Discovery.scan_finds scanned
  have refinds := Discovery.scan_finds rescanned
  constructor
  · apply exists_scanScripts
    apply Resolver.accepts_of_subset (accepts_of_scanScripts scannedScripts)
    exact Discovery.references_subset finds.scripts refinds.scripts
      fun file location content reached given => (spoils.unusable location content given).barren_script reached
  · apply exists_scanStylesheets
    apply Resolver.accepts_of_subset (accepts_of_scanStylesheets scannedStyles)
    exact Discovery.references_subset finds.stylesheets refinds.stylesheets
      fun file location content reached given => (spoils.unusable location content given).barren_style apart reached

theorem exists_cleaned {unused : List Text} (folder : FileTree.IsNameable settings.backupFolder)
    (files : ∀ file ∈ unused, FileTree.IsNameable file) (tree : FileTree) (root : Path.Parsed) :
    ∃ cleaned, (if settings.deleteUnused.isTruthy then Cleanup.clean tree root unused settings.backupFolder
      else pure (tree, [])).result = .ok cleaned := by
  split
  · obtain ⟨cleaned, moved, moves⟩ :=
      Cleanup.exists_moveAll (fun _ => folder) (fun file member => files file (List.mem_mergeSort.mp member)) tree root
    exact ⟨_, Cleanup.clean_eq_ok.mpr moves⟩
  · exact ⟨_, rfl⟩

/-- A run that ends also ends with unusable files. -/
theorem Spoils.exists_run (spoils : Spoils tree (tree.resolve path) settings contents)
    (apart : Apart tree (tree.resolve path) settings) (readable : Readable settings)
    (names : tree.AllNames FileTree.IsNameable)
    (ran : (run tree path settings).result = .ok (report, after)) :
    ∃ outcome, (run (tree.rewrite contents) path settings).result = .ok outcome := by
  obtain ⟨⟨lines, patterns, texts, valid⟩, ⟨others, excused⟩, nameable⟩ := readable
  rw [run_result] at ran
  split at ran
  case isTrue => cases ran
  case isFalse folder =>
    simp only [bind, Outcome.bind_eq_ok, Outcome.mapError_eq_ok] at ran
    obtain ⟨sources, scanned, scripts, scannedScripts, stylesheets, scannedStyles, ledger, entered,
      -, -, declared, compared, -⟩ := ran
    obtain ⟨others, rescanned, files⟩ := Discovery.exists_scan_rewrite contents scanned
    obtain ⟨⟨otherScripts, rescannedScripts⟩, otherStyles, rescannedStyles⟩ :=
      spoils.exists_findings apart scanned rescanned scannedScripts scannedStyles
    obtain ⟨suffixes, reentered, entered', withheld, closed⟩ := exists_ledgerOf texts entered
      (otherScripts.resolutions ++ otherStyles.resolutions)
    obtain ⟨unused, reported⟩ := Ledger.exists_unusedFiles valid withheld closed
    obtain ⟨redeclared, recompared⟩ := exists_unusedDependencies excused compared reentered.packages
    rw [unusedDependencies_congr (tree.stat_rewrite_of_kept contents spoils.spared).symm]
      at recompared
    have named : ∀ file ∈ unused, FileTree.IsNameable file := by
      intro file member
      have found := ((mem_unused_of_entered entered' reported).mp member).1
      exact Discovery.isNameable_of_found names scanned found
    obtain ⟨cleaned, cleans⟩ := exists_cleaned nameable named (tree.rewrite contents) (tree.resolve path)
    refine ⟨(reportOf others otherScripts otherStyles reentered unused redeclared cleaned.2,
      cleaned.1), ?_⟩
    rw [run_result]
    simp only [FileTree.isFolder_rewrite, FileTree.resolve_rewrite, folder, rescanned, files,
      rescannedScripts, rescannedStyles, entered', reported, recompared, cleans, bind, Except.bind,
      Except.mapError]
    rfl

/-! ## Isolation -/

/-- Files whose contents cannot be used count as empty: a run over them gives the same lists and moves the same files as
if they were empty, or fails alike, and every one of them is listed as skipped.  If the ignore settings are readable and
paths can have the names of the tree in them, a project whose run ends stays one. -/
theorem unusable_counts_as_empty (apart : Apart tree (tree.resolve path) settings)
    (spoils : Spoils tree (tree.resolve path) settings contents) :
    (run (tree.rewrite contents) path settings).result.map
        (fun outcome => (outcome.1.sections, outcome.1.stats.moved)) =
      (run (tree.rewrite (Discovery.emptied contents)) path settings).result.map
        (fun outcome => (outcome.1.sections, outcome.1.stats.moved)) ∧
    (∀ report after, (run (tree.rewrite contents) path settings).result = .ok (report, after) →
      ∀ file location, (ReachesScript tree (tree.resolve path) settings file location ∨
        ReachesStyle tree (tree.resolve path) settings file location) →
        (contents location).isSome = true → file ∈ report.stats.skipped) ∧
    (Readable settings → tree.AllNames FileTree.IsNameable →
      (∃ outcome, (run tree path settings).result = .ok outcome) →
        ∃ outcome, (run (tree.rewrite contents) path settings).result = .ok outcome) := by
  refine ⟨spoils.run_digest apart, ?_, ?_⟩
  · intro report after ran file location reached replaced
    obtain ⟨content, given⟩ := Option.isSome_iff_exists.mp replaced
    exact spoils.mem_skipped apart ran reached given
  · rintro readable names ⟨⟨report, after⟩, ran⟩
    exact spoils.exists_run apart readable names ran

/-- A script, a module that it imports, another script and a stylesheet. -/
def themedTree : FileTree := sampleTree "import './used'" ["used.ts", "broken.ts", "theme.css"]

/-- A script that is not parsed, one that may not be read, and a stylesheet that is too large. -/
def spoiledContents (location : Location) : Option FileContent :=
  if location = [("p" : Text), ("src" : Text), ("broken.ts" : Text)] then
    some { bytes := "import (".toList.map fun c => c.toNat.toUInt8 }
  else if location = [("p" : Text), ("src" : Text), ("used.ts" : Text)] then
    some { bytes := [], isReadable := false }
  else if location = [("p" : Text), ("src" : Text), ("theme.css" : Text)] then
    some { bytes := List.replicate 10485761 0 }
  else none

/-- Unused files are moved. -/
def moving : Layer := [("delete_unused", .bool true)]

set_option maxRecDepth 100000 in
theorem ofLayer_moving : ∃ settings, Settings.ofLayer moving = .ok settings ∧
    settings.scriptPatterns = Setting.scriptPatterns.default ∧
    settings.stylePatterns = Setting.stylePatterns.default ∧
    settings.backupFolder = "deadref-deleted-files" ∧ settings.maxBytes = .ok 10485760 ∧
    settings.ignoreFiles = .list [] ∧ settings.ignoreDependencies = .list [] :=
  ⟨_, rfl, rfl, rfl, rfl, rfl, rfl, rfl⟩

set_option maxRecDepth 100000 in
theorem sampleRun_themed : sampleRun themedTree moving (ended fun _ _ report _ => report.stats.moved) =
    some (some (["src/broken.ts", "src/main.ts", "src/theme.css"].map Text.ofString)) := by
  simp only [sampleRun, run, ledgerOf, Discovery.scan, Discovery.select, Settings.ignoredSuffixes,
    Cleanup.clean, Text.sortedSet, Text.mergeSort_eq_insertionSort]
  decide +kernel

/-- The scripts of the themed tree. -/
def themedScripts : List Text := ["src/broken.ts", "src/main.ts", "src/used.ts"].map Text.ofString

/-- The stylesheets of the themed tree. -/
def themedStyles : List Text := ["src/theme.css"].map Text.ofString

/-- The place of a file of the themed tree. -/
def themedPlace (file : Text) : Option Location :=
  (themedTree.locate ((themedTree.resolve sampleRoot).append (Path.Parsed.ofText file))).toOption

set_option maxRecDepth 100000 in
theorem select_themed : Discovery.select themedTree (themedTree.resolve sampleRoot) "deadref-deleted-files"
      Setting.scriptPatterns.default = .ok themedScripts ∧
    Discovery.select themedTree (themedTree.resolve sampleRoot) "deadref-deleted-files"
      Setting.stylePatterns.default = .ok themedStyles := by
  constructor
  all_goals
    apply Outcome.toOption_eq_some.mp
    simp only [Discovery.select, Text.sortedSet, Text.mergeSort_eq_insertionSort]
    decide +kernel

set_option maxRecDepth 100000 in
theorem extract_broken : ∃ failure, Script.extract "src/broken.ts"
    (Discovery.textOf ("import (".toList.map fun c => c.toNat.toUInt8)) = .error failure :=
  Outcome.toOption_eq_none.mp (by decide +kernel)

set_option maxRecDepth 100000 in
theorem reaches_themed {patterns : Value} {paths : List Text}
    (selects : Discovery.select themedTree (themedTree.resolve sampleRoot) "deadref-deleted-files" patterns = .ok paths)
    (file : Text) (location : Location) :
    Discovery.Reaches themedTree (themedTree.resolve sampleRoot) "deadref-deleted-files" patterns file
      location ↔ file ∈ paths ∧ themedPlace file = some location := by
  rw [Discovery.mem_select selects, themedPlace, Outcome.toOption_eq_some]
  constructor
  · intro reached
    exact ⟨reached.selected, reached.leads⟩
  · intro found
    exact ⟨found.1, found.2⟩

section

variable (scripted : settings.scriptPatterns = Setting.scriptPatterns.default)
  (styled : settings.stylePatterns = Setting.stylePatterns.default)
  (folder : settings.backupFolder = "deadref-deleted-files")

include scripted folder

theorem reachesScript_themed (file : Text) (location : Location) :
    ReachesScript themedTree (themedTree.resolve sampleRoot) settings file location ↔
      file ∈ themedScripts ∧ themedPlace file = some location := by
  rw [ReachesScript, folder, scripted]
  exact reaches_themed select_themed.1 file location

set_option maxRecDepth 100000 in
include styled in
theorem apart_themed : Apart themedTree (themedTree.resolve sampleRoot) settings := by
  have places : ∀ script ∈ themedScripts, ∀ stylesheet ∈ themedStyles,
      themedPlace script ≠ themedPlace stylesheet := by
    decide
  intro script stylesheet location reached restyled
  rw [reachesScript_themed scripted folder] at reached
  rw [ReachesStyle, folder, styled, reaches_themed select_themed.2] at restyled
  exact places script reached.1 stylesheet restyled.1 (reached.2.trans restyled.2.symm)

set_option maxRecDepth 100000 in
theorem spoils_themed (limited : settings.maxBytes = .ok 10485760) :
    Spoils themedTree (themedTree.resolve sampleRoot) settings spoiledContents := by
  have only : ∀ file ∈ themedScripts, themedPlace file =
      some [("p" : Text), ("src" : Text), ("broken.ts" : Text)] ↔ file = "src/broken.ts" := by
    decide
  have manifest : themedPlace Manifest.fileName = some [("p" : Text), Manifest.fileName] := by
    decide
  refine ⟨?_, ?_⟩
  · intro location content given
    rw [spoiledContents] at given
    split at given
    case isTrue broken =>
      cases given
      have listed : Text.ofString "src/broken.ts" ∈ themedScripts := by decide
      subst broken
      refine .refused ((reachesScript_themed scripted folder "src/broken.ts" _).mpr
        ⟨listed, (only _ listed).mpr rfl⟩) ?_
      intro file reached
      rw [reachesScript_themed scripted folder] at reached
      rw [(only file reached.1).mp reached.2]
      exact extract_broken
    case isFalse =>
      split at given
      case isTrue =>
        cases given
        exact .denied rfl
      case isFalse =>
        split at given
        case isTrue =>
          cases given
          refine .large limited ?_
          rw [List.length_replicate]
          decide
        case isFalse => cases given
  · intro location leads
    rw [themedPlace, leads] at manifest
    cases manifest
    decide

end

set_option maxRecDepth 100000 in
/-- A script that is not parsed, an imported one that may not be read and a stylesheet that is too large, in a project
whose unused files are moved: all three are skipped, and all else is as if they were empty. -/
theorem unusable_counts_as_empty_themed : ∃ settings,
    Settings.ofLayer moving = .ok settings ∧
    Apart themedTree (themedTree.resolve sampleRoot) settings ∧
    Spoils themedTree (themedTree.resolve sampleRoot) settings spoiledContents ∧
    ∃ report after, (run (themedTree.rewrite spoiledContents) sampleRoot settings).result =
        .ok (report, after) ∧
      Text.ofString "src/broken.ts" ∈ report.stats.skipped ∧ Text.ofString "src/used.ts" ∈ report.stats.skipped ∧
      Text.ofString "src/theme.css" ∈ report.stats.skipped ∧
      (run (themedTree.rewrite (Discovery.emptied spoiledContents)) sampleRoot settings).result.map
        (fun outcome => (outcome.1.sections, outcome.1.stats.moved)) =
          .ok (report.sections, report.stats.moved) := by
  obtain ⟨settings, accepted, scripted, styled, folder, limited, ignored, excused⟩ := ofLayer_moving
  have apart := apart_themed scripted styled folder
  have spoils := spoils_themed scripted folder limited
  obtain ⟨same, skips, ends⟩ := unusable_counts_as_empty apart spoils
  have runs : ∃ outcome, (run themedTree sampleRoot settings).result = .ok outcome := by
    obtain ⟨_, -, report, after, again, -, ran, -⟩ := sampleRun_ended sampleRun_themed
    cases accepted.symm.trans again
    exact ⟨_, ran⟩
  have readable : Readable settings :=
    ⟨⟨[], [], by rw [ignored]; rfl, rfl⟩, ⟨[], by rw [excused]; rfl⟩,
      by rw [folder]; exact ⟨by decide, by decide⟩⟩
  obtain ⟨⟨report, after⟩, ran⟩ := ends readable (by decide) runs
  refine ⟨settings, accepted, apart, spoils, report, after, ran, ?_, ?_, ?_, ?_⟩
  · have reached := (reachesScript_themed scripted folder "src/broken.ts"
      [("p" : Text), ("src" : Text), ("broken.ts" : Text)]).mpr ⟨by decide, by decide⟩
    exact skips report after ran _ _ (.inl reached) rfl
  · have reached := (reachesScript_themed scripted folder "src/used.ts"
      [("p" : Text), ("src" : Text), ("used.ts" : Text)]).mpr ⟨by decide, by decide⟩
    exact skips report after ran _ _ (.inl reached) rfl
  · have reached := (reaches_themed select_themed.2 "src/theme.css"
      [("p" : Text), ("src" : Text), ("theme.css" : Text)]).mpr ⟨by decide, by decide⟩
    rw [← folder, ← styled] at reached
    refine skips report after ran _ _ (.inr reached) ?_
    rw [spoiledContents, if_neg (by decide), if_neg (by decide), if_pos rfl, Option.isSome_some]
  · rw [← same, ran]
    rfl

end Analysis

end Deadwood
