import Deadwood.Proofs.MovedFiles
import Deadwood.Proofs.Settings
import Deadwood.Proofs.Stages

/-!
# The backup folder

Files are moved to a place in the backup folder, and a later scan leaves out
the paths that begin with the folder's path.  The folder is meant as a place and
left out as a text.  The two agree if neither the folder nor a pattern is
spelled with steps upwards, and the folder is not the root itself.
-/

namespace Deadwood

/-! ## Paths in the backup folder -/

namespace Path

variable {above names : List Text}

/-- The text of a path begins with that of a folder exactly if the path is below the folder. -/
theorem join_startsWith_iff (nonempty : above ≠ []) (free : ∀ name ∈ above, slash ∉ name)
    (others : ∀ name ∈ names, slash ∉ name) :
    Text.startsWith (join names) (join above ++ [slash]) = true ↔ IsBelow above names := by
  rw [Text.startsWith_iff]
  constructor
  · rintro ⟨rest, split⟩
    have given : names ≠ [] := by
      rintro rfl
      simp [join, Text.joinWith] at split
    have segments : names = above ++ Text.splitOn slash rest := by
      rw [← Text.splitOn_joinWith given others, ← join, ← split, List.append_assoc, List.singleton_append,
        Text.splitOn_append_separator, join, Text.splitOn_joinWith nonempty free]
    exact ⟨_, Text.splitOn_ne_nil slash rest, segments⟩
  · rintro ⟨rest, more, rfl⟩
    exact ⟨join rest, by simp [join_append nonempty more]⟩

end Path

namespace Discovery

open Deadwood.Path

variable {tree : FileTree} {root : Path.Parsed} {settings : Settings} {here place : Location}
  {names : List Text} {folder : Text}

/-- A folder without names, the root itself, is spelled `.`. -/
theorem backupStart_eq (relative : (Parsed.ofText folder).slashes = 0) :
    backupStart folder = join (if (Parsed.ofText folder).names = [] then [Path.here]
      else (Parsed.ofText folder).names) ++ [slash] := by
  have steps : ∀ name ∈ (Parsed.ofText folder).names, IsStep name := fun name => isStep_of_proper
  simp only [backupStart, Parsed.toText, relative, List.replicate_zero, List.nil_append]
  by_cases nameless : (Parsed.ofText folder).names = []
  · rw [nameless, if_pos rfl]
    rfl
  · have joined := join_ne_nil nameless steps
    have closed := getLast?_join_ne_slash steps
    rw [if_neg nameless]
    generalize join (Parsed.ofText folder).names = text at joined closed
    have kept : Text.trimEndBy (· = slash) text = text := by
      rw [Text.trimEndBy_eq_rdropWhile, List.rdropWhile_eq_self_iff]
      intro nonempty
      simpa [List.getLast?_eq_some_getLast nonempty] using closed
    cases text with
    | nil => exact absurd rfl joined
    | cons c rest => exact congrArg (· ++ [slash]) kept

theorem startsWith_backupStart (relative : (Parsed.ofText folder).slashes = 0)
    (steps : ∀ name ∈ names, IsStep name) :
    Text.startsWith (join names) (backupStart folder) = true ↔
      (Parsed.ofText folder).names ≠ [] ∧ IsBelow (Parsed.ofText folder).names names := by
  have others : ∀ name ∈ names, slash ∉ name := fun name member => (steps name member).free
  rw [backupStart_eq relative]
  by_cases nameless : (Parsed.ofText folder).names = []
  · rw [if_pos nameless, join_startsWith_iff (by simp) (by decide) others]
    refine iff_of_false ?_ fun named => named.1 nameless
    rintro ⟨rest, -, rfl⟩
    exact (steps Path.here List.mem_cons_self).not_here rfl
  · rw [if_neg nameless,
      join_startsWith_iff nameless (fun name member => (isStep_of_proper member).free) others]
    exact (and_iff_right nameless).symm

/-- Which names are those of a source. -/
theorem isCandidate_join (relative : (Parsed.ofText folder).slashes = 0)
    (steps : ∀ name ∈ names, IsStep name) : isCandidate folder (join names) = true ↔
      (∀ name ∈ names, name ∉ skippedFolders) ∧
        ¬ ((Parsed.ofText folder).names ≠ [] ∧ IsBelow (Parsed.ofText folder).names names) := by
  simp only [isCandidate, Bool.and_eq_true, Bool.not_eq_true', Bool.eq_false_iff, ne_eq,
    startsWith_backupStart relative steps, Parsed.ofText_join steps, Parsed.parts, if_true]
  simp

/-! ## Places that are found -/

/-- One of the patterns by which sources are found. -/
def IsPattern (settings : Settings) (value : Value) : Prop :=
  ∃ patterns values, (patterns = settings.scriptPatterns ∨ patterns = settings.stylePatterns) ∧
    patterns.items = .ok values ∧ value ∈ values

/-- No pattern is spelled with steps upwards. -/
def IsLevel (settings : Settings) : Prop :=
  ∀ text, IsPattern settings (.text text) → up ∉ properSegments text

/-- A pattern selects names that lead to a place, without a folder that holds no sources, and not below
the backup folder as that is spelled. -/
def Sees (tree : FileTree) (here : Location) (settings : Settings) (place : Location) : Prop :=
  ∃ value pattern names, IsPattern settings value ∧ patternOf value = .ok pattern ∧
    names ∈ tree.glob here pattern ∧ tree.walk here names = .ok place ∧
    (∀ name ∈ names, name ∉ skippedFolders) ∧
    ¬ ((Parsed.ofText settings.backupFolder).names ≠ [] ∧
      IsBelow (Parsed.ofText settings.backupFolder).names names)

theorem mem_files_iff {found : Discovery} {path : Text} (located : tree.locate root = .ok here)
    (ran : (scan tree root settings).result = .ok found) :
    path ∈ found.files ↔ ∃ value pattern names, IsPattern settings value ∧ patternOf value = .ok pattern ∧
      names ∈ tree.glob here pattern ∧ path = join names ∧ isCandidate settings.backupFolder path = true := by
  rw [(scan_finds ran).files, locationOf, located]
  constructor
  · rintro (selected | selected)
    · obtain ⟨values, items, value, member, pattern, read, ⟨names, hit, spelled⟩, candidate⟩ := selected
      exact ⟨value, pattern, names, ⟨_, values, .inl rfl, items, member⟩, read, hit, spelled, candidate⟩
    · obtain ⟨values, items, value, member, pattern, read, ⟨names, hit, spelled⟩, candidate⟩ := selected
      exact ⟨value, pattern, names, ⟨_, values, .inr rfl, items, member⟩, read, hit, spelled, candidate⟩
  · rintro ⟨value, pattern, names, ⟨_, values, rfl | rfl, items, member⟩, read, hit, spelled, candidate⟩
    · exact .inl ⟨values, items, value, member, pattern, read, ⟨names, hit, spelled⟩, candidate⟩
    · exact .inr ⟨values, items, value, member, pattern, read, ⟨names, hit, spelled⟩, candidate⟩

/-- Where a found file is, a pattern has led. -/
theorem sees_of_found {found : Discovery} {file : Text} (wellNamed : tree.WellNamed)
    (located : tree.locate root = .ok here) (relative : (Parsed.ofText settings.backupFolder).slashes = 0)
    (ran : (scan tree root settings).result = .ok found) (listed : file ∈ found.files)
    (leads : tree.locate (root.append (Parsed.ofText file)) = .ok place) : Sees tree here settings place := by
  obtain ⟨value, pattern, names, given, read, hit, rfl, candidate⟩ := (mem_files_iff located ran).mp listed
  have steps := wellNamed.steps hit
  rw [Parsed.ofText_join steps] at leads
  obtain ⟨-, _, again, walked⟩ := (FileTree.locate_append rfl).mp leads
  cases located.symm.trans again
  rw [isCandidate_join relative steps] at candidate
  exact ⟨value, pattern, names, given, read, hit, walked, candidate.1, candidate.2⟩

/-- A scan finds exactly the places that a pattern reaches by names which are not left out. -/
theorem finds_place_iff {found : Discovery} (proper : tree.Proper) (located : tree.locate root = .ok here)
    (relative : (Parsed.ofText settings.backupFolder).slashes = 0)
    (ran : (scan tree root settings).result = .ok found) :
    (∃ file ∈ found.files, tree.locate (root.append (Parsed.ofText file)) = .ok place) ↔
      Sees tree here settings place := by
  constructor
  · rintro ⟨file, listed, leads⟩
    exact sees_of_found proper.toWellNamed located relative ran listed leads
  · rintro ⟨value, pattern, names, given, read, hit, walked, kept, outside⟩
    have steps := proper.toWellNamed.steps hit
    have candidate := (isCandidate_join relative steps).mpr ⟨kept, outside⟩
    have listed := (mem_files_iff located ran).mpr ⟨value, pattern, names, given, read, hit, rfl, candidate⟩
    obtain ⟨others, location, content, leadsTo⟩ := leadsTo_of_scan proper located ran listed
    have there := leadsTo.walks
    rw [join_inj leadsTo.steps steps leadsTo.spelled.symm, walked, Except.ok.injEq] at there
    exact ⟨join names, listed, there ▸ leadsTo.leads⟩

/-- Names that a level pattern selects lead to the place that they spell. -/
theorem spells_of_level {value : Value} {pattern : List GlobSegment} (proper : tree.WellNamed)
    (level : IsLevel settings) (given : IsPattern settings value) (read : patternOf value = .ok pattern)
    (hit : names ∈ tree.glob here pattern) : (∀ name ∈ names, IsName name) ∧
      ∃ content, tree.entry? (here ++ names) = some (.file content) ∧
        tree.walk here names = .ok (here ++ names) := by
  obtain ⟨text, rfl, parsed⟩ := patternOf_eq_ok read
  have straight : GlobSegment.exact up ∉ pattern := fun listed =>
    level text given (GlobSegment.exact_mem_properSegments parsed listed)
  have named := (proper.named.glob (fun listed => absurd listed straight) hit).1
  obtain ⟨location, content, walked, file⟩ := FileTree.leadsToFile_eq_true.mp (List.mem_filter.mp hit).2
  have spelled : location = here ++ names := by
    rw [FileTree.walk_eq_descend walked]
    exact FileTree.descend_of_level fun name member => (named name member).not_up
  subst spelled
  exact ⟨named, content, file, walked⟩

section

variable (level : IsLevel settings) (given : (Parsed.ofText settings.backupFolder).names ≠ [])

include level given

/-- Level patterns see nothing in a backup folder that is not the root. -/
theorem not_sees_backup (wellNamed : tree.WellNamed)
    (below : IsBelow (here ++ (Parsed.ofText settings.backupFolder).names) place) :
    ¬ Sees tree here settings place := by
  rintro ⟨value, pattern, names, isPattern, read, hit, leads, -, outside⟩
  obtain ⟨-, content, -, walked⟩ := spells_of_level wellNamed level isPattern read hit
  cases leads.symm.trans walked
  obtain ⟨rest, nonempty, split⟩ := below
  rw [List.append_assoc, List.append_cancel_left_eq] at split
  exact outside ⟨given, rest, nonempty, split⟩

/-- The files that level patterns find can be backed up. -/
theorem eligible_of_found {found : Discovery} {path : Text} (wellNamed : tree.WellNamed)
    (located : tree.locate root = .ok here) (relative : (Parsed.ofText settings.backupFolder).slashes = 0)
    (ran : (scan tree root settings).result = .ok found) (listed : path ∈ found.files) :
    ∃ names, path = join names ∧
      Cleanup.Eligible tree here (Parsed.ofText settings.backupFolder).names names := by
  obtain ⟨value, pattern, names, isPattern, read, hit, rfl, candidate⟩ :=
    (mem_files_iff located ran).mp listed
  obtain ⟨named, content, file, -⟩ := spells_of_level wellNamed level isPattern read hit
  rw [isCandidate_join relative (isStep_of_names named)] at candidate
  exact ⟨names, rfl, named, fun below => candidate.2 ⟨given, below⟩, content, file⟩

end

end Discovery

/-! ## Runs -/

namespace Analysis

open Deadwood.Path

variable {tree after : FileTree} {path : Path.Parsed} {settings : Settings} {report : Report}

/-- What a run found, reported and moved. -/
theorem cleaned_of_run (ran : (run tree path settings).result = .ok (report, after)) :
    tree.isFolder (tree.resolve path) = true ∧ ∃ sources,
      (Discovery.scan tree (tree.resolve path) settings).result = .ok sources ∧
      (∀ file ∈ report.unused, file ∈ sources.files) ∧
      ((Cleanup.clean tree (tree.resolve path) report.unused settings.backupFolder).result =
          .ok (after, report.stats.moved) ∨ (after = tree ∧ report.stats.moved = [])) := by
  rw [run_result] at ran
  split at ran
  case isTrue => cases ran
  case isFalse folder =>
    simp only [bind, Outcome.bind_eq_ok, Outcome.mapError_eq_ok] at ran
    obtain ⟨sources, scanned, scripts, -, stylesheets, -, ledger, entered, unused, reported, declared, -,
      cleaned, moved, done⟩ := ran
    cases done
    refine ⟨by simpa using folder, sources, scanned, ?_, ?_⟩
    · intro file member
      exact ((mem_unused_of_entered entered reported).mp member).1
    · split at moved
      case isTrue => exact .inl moved
      case isFalse =>
        cases moved
        exact .inr ⟨rfl, rfl⟩

/-- A resolved path to a folder leads to the place that it spells. -/
theorem root_of_isFolder (folder : tree.isFolder (tree.resolve path) = true) :
    tree.locate (tree.resolve path) = .ok (tree.resolve path).names ∧
      tree.entry? (tree.resolve path).names = some .folder := by
  obtain ⟨place, located, found⟩ := FileTree.isFolder_iff.mp folder
  have spelled := FileTree.locate_rooted Nat.one_ne_zero (tree.resolve_level path) located
  subst spelled
  exact ⟨located, found⟩

/-- A cleanup of found files, with level patterns and a level backup folder: every file that is listed as
moved is in the backup folder, and the tree can be scanned again from the same root. -/
theorem moved_to_backup (wellNamed : tree.WellNamed) (level : Discovery.IsLevel settings)
    (given : (Parsed.ofText settings.backupFolder).names ≠ [])
    (down : up ∉ (Parsed.ofText settings.backupFolder).names)
    (relative : (Parsed.ofText settings.backupFolder).slashes = 0)
    (ran : (run tree path settings).result = .ok (report, after)) :
    ∃ done, Cleanup.Progress tree after (tree.resolve path).names
        (Parsed.ofText settings.backupFolder).names done ∧
      ∀ file ∈ report.stats.moved, ∃ names ∈ done, file = join names := by
  obtain ⟨folder, sources, scanned, unused, ⟨cleaned⟩ | ⟨rfl, nothing⟩⟩ := cleaned_of_run ran
  · obtain ⟨located, stands⟩ := root_of_isFolder folder
    have listed : ∀ file ∈ report.unused.mergeSort Text.le, ∃ names, file = join names ∧
        Cleanup.Eligible tree (tree.resolve path).names (Parsed.ofText settings.backupFolder).names
          names := by
      intro file member
      exact Discovery.eligible_of_found level given wellNamed located relative scanned
        (unused file (List.mem_mergeSort.mp member))
    have named : ∀ name ∈ (Parsed.ofText settings.backupFolder).names, IsName name := fun name member =>
      (isStep_of_proper member).isName fun climbs => down (climbs ▸ member)
    have reads : Parsed.ofText settings.backupFolder = ⟨0, (Parsed.ofText settings.backupFolder).names⟩ := by
      rw [← relative]
    obtain ⟨done, progress, -, all⟩ := (Cleanup.Progress.refl wellNamed).moveAll wellNamed.toWellFormed
      Nat.one_ne_zero stands reads named listed (Cleanup.clean_eq_ok.mp cleaned)
    exact ⟨done, progress, all⟩
  · exact ⟨[], .refl wellNamed, by simp [nothing]⟩

/-- A scan finds exactly the places that a pattern reaches by names which are not left out, whatever the
spelling of the backup folder.  If the patterns and the folder have no steps upwards and the folder is not
the root, then every file that a run moves stands in the folder afterwards, and no scan finds it there. -/
theorem backup_not_rescanned {layer : Layer} (accepted : Settings.ofLayer layer = .ok settings)
    (proper : tree.Proper) (ran : (run tree path settings).result = .ok (report, after)) :
    (∀ (later : FileTree) found place, later.Proper → later.isFolder (later.resolve path) = true →
      (Discovery.scan later (later.resolve path) settings).result = .ok found →
        ((∃ file ∈ found.files,
          later.locate ((later.resolve path).append (Parsed.ofText file)) = .ok place) ↔
            Discovery.Sees later (later.resolve path).names settings place)) ∧
    (Discovery.IsLevel settings → (Parsed.ofText settings.backupFolder).names ≠ [] →
      up ∉ (Parsed.ofText settings.backupFolder).names →
      ∀ file ∈ report.stats.moved, ∃ place content,
        Cleanup.IsBackup (tree.resolve path).names (Parsed.ofText settings.backupFolder).names
          (Parsed.ofText file).names place ∧
        tree.entry? ((tree.resolve path).names ++ (Parsed.ofText file).names) = some (.file content) ∧
        after.entry? ((tree.resolve path).names ++ (Parsed.ofText file).names) = none ∧
        after.entry? place = some (.file content) ∧
        ∀ found, (Discovery.scan after (after.resolve path) settings).result = .ok found →
          ∀ other ∈ found.files,
            after.locate ((after.resolve path).append (Parsed.ofText other)) ≠ .ok place) := by
  have relative := Settings.backupFolder_relative accepted
  refine ⟨?_, ?_⟩
  · intro later found place proper folder scanned
    exact Discovery.finds_place_iff proper (root_of_isFolder folder).1 relative scanned
  · intro level given down file member
    obtain ⟨located, folder⟩ := root_of_isFolder (cleaned_of_run ran).1
    obtain ⟨done, progress, all⟩ := moved_to_backup proper.toWellNamed level given down relative ran
    obtain ⟨names, finished, rfl⟩ := all file member
    obtain ⟨eligible, -, gone, place, content, backs, was, stands⟩ := progress.moved names finished
    rw [Parsed.ofText_join (isStep_of_names eligible.named)]
    refine ⟨place, content, backs, was, gone, stands, ?_⟩
    intro found scanned other listed leads
    have same : after.resolve path = tree.resolve path := by
      simp only [FileTree.resolve, FileTree.namesFromRoot, progress.workingFolder]
    have again : after.locate (tree.resolve path) = .ok (tree.resolve path).names := by
      obtain ⟨short, walked⟩ := FileTree.locate_eq_ok.mp located
      exact FileTree.locate_eq_ok.mpr ⟨short, FileTree.walk_of_folders progress.folders walked⟩
    rw [same] at scanned leads
    have seen := Discovery.sees_of_found progress.wellNamed again relative scanned listed leads
    exact Discovery.not_sees_backup level given progress.wellNamed
      (backs.isBelow (eligible.nonempty folder)) seen

/-- A layer by which unused files are moved to a folder. -/
def movingTo (folder : Text) : Layer := [("delete_unused", .bool true), ("backup_dir", .text folder)]

/-- A run and the scan after it: what is moved and what is found, and the places where a file that is moved belongs and
where a file that is found stands. -/
def rescanView (moved found : Text) (settings : Settings) (report : Report) (after : FileTree) :
    List Text × Option (List Text) × Option Location × Option Location :=
  let root := after.resolve sampleRoot
  (report.stats.moved, (Discovery.scan after root settings).result.toOption.map (·.files),
    (after.locate ((root.append (Parsed.ofText settings.backupFolder)).append (Parsed.ofText moved))).toOption,
    (after.locate (root.append (Parsed.ofText found))).toOption)

/-- The backup of the orphan in the folder `src/old`. -/
def orphanBackup : Location :=
  [("p" : Text), ("src" : Text), ("old" : Text), ("src" : Text), ("orphan.ts" : Text)]

set_option maxRecDepth 100000 in
set_option synthInstance.maxSize 400 in
theorem sampleRun_level :
    sampleRun orphanTree (movingTo "./src//old/") (ended fun settings _ report after =>
          rescanView "src/orphan.ts" "src/used.ts" settings report after) =
      some (some (["src/main.ts", "src/orphan.ts"].map Text.ofString, some (["src/used.ts"].map Text.ofString),
        some orphanBackup, some [("p" : Text), ("src" : Text), ("used.ts" : Text)])) := by
  simp only [sampleRun, rescanView, run, ledgerOf, Discovery.scan, Discovery.select, Settings.ignoredSuffixes,
    Cleanup.clean, Text.sortedSet, Text.mergeSort_eq_insertionSort]
  decide +kernel

set_option maxRecDepth 100000 in
set_option synthInstance.maxSize 400 in
theorem sampleRun_climbing :
    sampleRun orphanTree (movingTo "src/../src/old") (ended fun settings _ report after =>
          rescanView "src/orphan.ts" "src/old/src/orphan.ts" settings report after) =
      some (some (["src/main.ts", "src/orphan.ts"].map Text.ofString,
        some (["src/old/src/main.ts", "src/old/src/orphan.ts", "src/used.ts"].map Text.ofString),
        some orphanBackup, some orphanBackup)) := by
  simp only [sampleRun, rescanView, run, ledgerOf, Discovery.scan, Discovery.select, Settings.ignoredSuffixes,
    Cleanup.clean, Text.sortedSet, Text.mergeSort_eq_insertionSort]
  decide +kernel

set_option maxRecDepth 100000 in
theorem ofLayer_movingTo : ∃ settings, Settings.ofLayer (movingTo "./src//old/") = .ok settings ∧
    settings.scriptPatterns = Setting.scriptPatterns.default ∧
    settings.stylePatterns = Setting.stylePatterns.default ∧ settings.backupFolder = "./src//old/" :=
  ⟨_, rfl, rfl, rfl, rfl⟩

/-- The patterns that are used if none are given. -/
def defaultPatterns : List Text :=
  ["src/**/*.ts", "src/**/*.tsx", "src/**/*.css", "src/**/*.less", "src/**/*.scss"].map Text.ofString

theorem mem_defaultPatterns (scripted : settings.scriptPatterns = Setting.scriptPatterns.default)
    (styled : settings.stylePatterns = Setting.stylePatterns.default) {text : Text}
    (given : Discovery.IsPattern settings (.text text)) : text ∈ defaultPatterns := by
  obtain ⟨patterns, values, rfl | rfl, items, member⟩ := given
  · rw [scripted] at items
    cases items
    obtain ⟨given, listed, same⟩ := List.mem_map.mp member
    cases same
    exact List.mem_append_left (["src/**/*.css", "src/**/*.less", "src/**/*.scss"].map Text.ofString) listed
  · rw [styled] at items
    cases items
    obtain ⟨given, listed, same⟩ := List.mem_map.mp member
    cases same
    exact List.mem_append_right (["src/**/*.ts", "src/**/*.tsx"].map Text.ofString) listed

theorem isLevel_defaults (scripted : settings.scriptPatterns = Setting.scriptPatterns.default)
    (styled : settings.stylePatterns = Setting.stylePatterns.default) : Discovery.IsLevel settings := by
  have level : ∀ text ∈ defaultPatterns, up ∉ properSegments text := by
    decide
  intro text given
  exact level text (mem_defaultPatterns scripted styled given)

set_option maxRecDepth 100000 in
/-- A backup folder below the sources, with needless slashes in its spelling: a moved file is in it and not
found again. -/
theorem backup_not_rescanned_nested : ∃ settings report after found,
    Settings.ofLayer (movingTo "./src//old/") = .ok settings ∧ orphanTree.Proper ∧
    Discovery.IsLevel settings ∧ (Parsed.ofText settings.backupFolder).names = ["src", "old"] ∧
    (run orphanTree sampleRoot settings).result = .ok (report, after) ∧
    Text.ofString "src/orphan.ts" ∈ report.stats.moved ∧
    (Discovery.scan after (after.resolve sampleRoot) settings).result = .ok found ∧
    found.files = ["src/used.ts"].map Text.ofString ∧
    ∃ place, Cleanup.IsBackup [("p" : Text)] ["src", "old"] ["src", "orphan.ts"] place ∧
      after.entry? place = some (.file { bytes := [] }) ∧
      ∀ other ∈ found.files,
        after.locate ((after.resolve sampleRoot).append (Parsed.ofText other)) ≠ .ok place := by
  obtain ⟨settings, accepted, scripted, styled, folder⟩ := ofLayer_movingTo
  obtain ⟨_, -, report, after, again, -, ran, seen⟩ := sampleRun_ended sampleRun_level
  cases accepted.symm.trans again
  simp only [rescanView, Prod.mk.injEq, Option.map_eq_some_iff, Outcome.toOption_eq_some] at seen
  obtain ⟨moved, ⟨found, scanned, files⟩, -, -⟩ := seen
  have proper : orphanTree.Proper := by decide
  have level := isLevel_defaults scripted styled
  have names : (Parsed.ofText settings.backupFolder).names = ["src", "old"] := by
    rw [folder]
    decide
  have member : Text.ofString "src/orphan.ts" ∈ report.stats.moved := by
    rw [moved]
    decide
  obtain ⟨place, content, backs, was, -, stands, misses⟩ :=
    (backup_not_rescanned accepted proper ran).2 level (by simp [names]) (by rw [names]; decide) _ member
  have empty : FileTree.entry? orphanTree ((orphanTree.resolve sampleRoot).names ++
      (Parsed.ofText "src/orphan.ts").names) = some (.file { bytes := [] }) := by
    decide
  cases was.symm.trans empty
  rw [names] at backs
  exact ⟨settings, report, after, found, accepted, proper, level, names, ran, member, scanned, files, place,
    backs, stands, misses found scanned⟩

/-- With the same folder spelled with a step upwards, a moved file is found again in its new place. -/
theorem backup_rescanned : ∃ settings report after found,
    Settings.ofLayer (movingTo "src/../src/old") = .ok settings ∧
    (run orphanTree sampleRoot settings).result = .ok (report, after) ∧
    Text.ofString "src/orphan.ts" ∈ report.stats.moved ∧
    (Discovery.scan after (after.resolve sampleRoot) settings).result = .ok found ∧
    Text.ofString "src/old/src/orphan.ts" ∈ found.files ∧
    after.locate (((after.resolve sampleRoot).append (Parsed.ofText settings.backupFolder)).append
      (Parsed.ofText "src/orphan.ts")) = .ok orphanBackup ∧
    after.locate ((after.resolve sampleRoot).append (Parsed.ofText "src/old/src/orphan.ts")) =
      .ok orphanBackup := by
  obtain ⟨settings, -, report, after, accepted, -, ran, seen⟩ := sampleRun_ended sampleRun_climbing
  simp only [rescanView, Prod.mk.injEq, Option.map_eq_some_iff, Outcome.toOption_eq_some] at seen
  obtain ⟨moved, ⟨found, scanned, files⟩, target, place⟩ := seen
  refine ⟨settings, report, after, found, accepted, ran, ?_, scanned, ?_, target, place⟩
  · rw [moved]
    decide
  · rw [files]
    decide

end Analysis

end Deadwood
