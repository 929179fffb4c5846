import Deadwood.Proofs.FolderSearch
import Deadwood.Proofs.RunEnds

/-!
# The sources of a project

With the patterns that are used if none are given, a scan finds the files below
`src` that have one of five endings, apart from those in folders without sources
and in the backup folder.  Each of them is read, or passed over if it is too
large or may not be read.  The scan ends unless a folder below `src` is too deep
or the path of something below `src` is too long.
-/

namespace Deadwood

/-! ## What a scan finds -/

namespace Discovery

open Deadwood.Path

variable {tree : FileTree} {root : Path.Parsed} {here : Location} {settings : Settings} {names : List Text}

/-- The endings of scripts. -/
def scriptEndings : List Text := [".ts", ".tsx"].map Text.ofString

/-- The endings of stylesheets. -/
def styleEndings : List Text := [".css", ".less", ".scss"].map Text.ofString

/-- A name ends in one of some ways. -/
def HasEnding (endings : List Text) (name : Text) : Prop := ∃ ending ∈ endings, ending <:+ name

/-- Where the backup folder of a project is. -/
def backupPlace (here : Location) (settings : Settings) : Location :=
  FileTree.descend here (properSegments settings.backupFolder)

/-- The file that names lead to from the root is a source with one of some endings. -/
structure IsSource (tree : FileTree) (here : Location) (settings : Settings) (endings names : List Text)
    (content : FileContent) : Prop where
  stands : tree.entry? (here ++ names) = some (.file content)
  inside : IsBelow ["src"] names
  ends : ∃ last ∈ names.getLast?, HasEnding endings last
  kept : ∀ name ∈ names, name ≠ "node_modules" ∧ name ≠ ".git"
  outside : ¬ IsBelow (backupPlace here settings) (here ++ names)

/-- The pattern of the files below `src` with an ending. -/
def patternFor (ending : Text) : Text := "src/**/*" ++ ending

theorem default_scriptPatterns : Setting.scriptPatterns.default = .texts (scriptEndings.map patternFor) := rfl

theorem default_stylePatterns : Setting.stylePatterns.default = .texts (styleEndings.map patternFor) := rfl

theorem patternOf_patternFor {ending : Text} (listed : ending ∈ scriptEndings ++ styleEndings) :
    GlobSegment.hasWildcard ending = false ∧ patternOf (.text (patternFor ending)) =
      .ok [.exact "src", .deep, .wild (Codepoint.char '*' :: ending)] := by
  revert ending
  decide

/-- The backup folder is spelled as a path below the root, without the segments `.` and `..`. -/
structure IsPlainBackup (folder : Text) : Prop where
  relative : (Parsed.ofText folder).slashes = 0
  given : properSegments folder ≠ []
  level : up ∉ properSegments folder

/-- A path that does not begin with a slash has a segment that is not empty. -/
theorem exists_segment {path : Text} (nonempty : path ≠ []) (unrooted : path.head? ≠ some slash) :
    ∃ segment ∈ segments path, segment ≠ [] := by
  cases path with
  | nil => exact absurd rfl nonempty
  | cons c rest =>
    have inside : c ≠ slash := by simpa using unrooted
    rw [segments, Text.splitOn, if_neg inside]
    split
    case h_1 => exact ⟨[c], List.mem_cons_self, List.cons_ne_nil c []⟩
    case h_2 piece pieces _ => exact ⟨c :: piece, List.mem_cons_self, List.cons_ne_nil c piece⟩

theorem isPlainBackup_of_accepted {layer : Layer} (accepted : Settings.ofLayer layer = .ok settings)
    (level : ∀ segment ∈ segments settings.backupFolder, segment ≠ Path.here ∧ segment ≠ up) :
    IsPlainBackup settings.backupFolder where
  relative := Settings.backupFolder_relative accepted
  given := by
    have unrooted := rootSlashes_eq_zero_iff.mp (Settings.backupFolder_relative accepted)
    obtain ⟨segment, member, nonempty⟩ := exists_segment (Settings.backupFolder_ne_nil accepted) unrooted
    apply List.ne_nil_of_mem
    rw [properSegments, List.mem_filter]
    refine ⟨member, ?_⟩
    simp [nonempty, (level segment member).1]
  level := by
    intro member
    exact (level up (List.mem_of_mem_filter member)).2 rfl

theorem IsPlainBackup.isBelow_iff (plain : IsPlainBackup settings.backupFolder) :
    IsBelow (backupPlace here settings) (here ++ names) ↔ IsBelow (properSegments settings.backupFolder) names := by
  have place : backupPlace here settings = here ++ properSegments settings.backupFolder :=
    FileTree.descend_of_level fun name member climbs => plain.level (climbs ▸ member)
  simp only [IsBelow, place, List.append_assoc, List.append_cancel_left_eq]

/-- A file that stands below the root is a candidate for a source unless it lies in a folder that is left out. -/
theorem isCandidate_iff_of_entry (storable : tree.Storable) (plain : IsPlainBackup settings.backupFolder)
    {entry : Entry} (found : tree.entry? (here ++ names) = some entry) :
    isCandidate settings.backupFolder (join names) = true ↔
      (∀ name ∈ names, name ≠ "node_modules" ∧ name ≠ ".git") ∧
        ¬ IsBelow (backupPlace here settings) (here ++ names) := by
  have steps : ∀ name ∈ names, IsStep name := by
    intro name member
    exact (storable.isName found name (List.mem_append_right here member)).isStep
  rw [isCandidate_join plain.relative steps, plain.isBelow_iff]
  apply and_congr
  · simp [skippedFolders]
  · exact not_congr (and_iff_right plain.given)

/-- The patterns for some endings select the sources with these endings. -/
theorem selected_iff (storable : tree.Storable) (plain : IsPlainBackup settings.backupFolder) {endings : List Text}
    (known : ∀ ending ∈ endings, ending ∈ scriptEndings ++ styleEndings) {path : Text} :
    Selected tree here settings.backupFolder (.texts (endings.map patternFor)) path ↔
      ∃ names content, path = join names ∧ IsSource tree here settings endings names content := by
  have level : ("src" : Text) ≠ up := by decide
  constructor
  · rintro ⟨values, items, value, listed, pattern, read, ⟨names, hit, rfl⟩, candidate⟩
    cases items
    obtain ⟨text, member, rfl⟩ := List.mem_map.mp listed
    obtain ⟨ending, given, rfl⟩ := List.mem_map.mp member
    obtain ⟨unstarred, segments⟩ := patternOf_patternFor (known ending given)
    cases read.symm.trans segments
    obtain ⟨⟨between, last, rfl, accepted⟩, content, file⟩ := (storable.mem_glob_iff level).mp hit
    obtain ⟨kept, outside⟩ := (isCandidate_iff_of_entry storable plain file).mp candidate
    refine ⟨_, content, rfl, file, ⟨between ++ [last], by simp, rfl⟩, ?_, kept, outside⟩
    have isLast : (("src" : Text) :: (between ++ [last])).getLast? = some last :=
      List.getLast?_append_of_ne_nil (("src" : Text) :: between) (List.cons_ne_nil last [])
    exact ⟨last, isLast, ending, given, (Wildcard.accepts_ending unstarred).mp accepted⟩
  · rintro ⟨names, content, rfl, file, ⟨rest, nonempty, rfl⟩, ⟨last, isLast, ending, given, ends⟩, kept, outside⟩
    obtain ⟨unstarred, segments⟩ := patternOf_patternFor (known ending given)
    refine ⟨_, rfl, _, List.mem_map_of_mem (List.mem_map_of_mem given), _, segments, ⟨_, ?_, rfl⟩,
      (isCandidate_iff_of_entry storable plain file).mpr ⟨kept, outside⟩⟩
    apply (storable.mem_glob_iff level).mpr
    refine ⟨⟨rest.dropLast, last, ?_, (Wildcard.accepts_ending unstarred).mpr ends⟩, content, file⟩
    rw [List.getLast?_append_of_ne_nil _ nonempty] at isLast
    rw [List.dropLast_append_getLast? last isLast]
    rfl

/-! ## Scans that end -/

theorem isPattern_iff (scripted : settings.scriptPatterns = Setting.scriptPatterns.default)
    (styled : settings.stylePatterns = Setting.stylePatterns.default) {text : Text} :
    IsPattern settings (.text text) ↔ ∃ ending ∈ scriptEndings ++ styleEndings, text = patternFor ending := by
  have listed : ∀ endings : List Text, Value.text text ∈ (endings.map patternFor).map Value.text ↔
      ∃ ending ∈ endings, text = patternFor ending := by
    simp [eq_comm]
  rw [default_scriptPatterns] at scripted
  rw [default_stylePatterns] at styled
  simp only [List.mem_append, or_and_right, exists_or, ← listed]
  constructor
  · rintro ⟨_, values, rfl | rfl, items, member⟩
    · rw [scripted] at items
      cases items
      exact .inl member
    · rw [styled] at items
      cases items
      exact .inr member
  · rintro (script | style)
    · exact ⟨_, _, .inl rfl, by rw [scripted]; rfl, script⟩
    · exact ⟨_, _, .inr rfl, by rw [styled]; rfl, style⟩

/-- The pattern for an ending can be searched for if what is below `src` is within the limits. -/
theorem isSearchable_patternFor (storable : tree.Storable) (located : tree.locate root = .ok here) {ending : Text}
    (listed : ending ∈ scriptEndings ++ styleEndings) :
    IsSearchable tree root (patternFor ending) ↔ tree.IsWithin root here "src" (ending <:+ ·) := by
  have relative : ∀ ending ∈ scriptEndings ++ styleEndings, GlobSegment.IsRelative (patternFor ending) := by decide
  obtain ⟨unstarred, read⟩ := patternOf_patternFor listed
  have parsed : GlobSegment.ofText (patternFor ending) =
      .ok [.exact "src", .deep, .wild (Codepoint.char '*' :: ending)] := read
  have within : (∀ visit ∈ tree.visits here [.exact "src", .deep, .wild (Codepoint.char '*' :: ending)],
      visit.fault? root = none) ↔ tree.IsWithin root here "src" (ending <:+ ·) := by
    rw [storable.isWithin_iff (by decide) (by decide) (by decide)]
    simp only [Wildcard.accepts_ending unstarred]
  rw [← within, ← locationOf_eq located]
  constructor
  · intro searchable
    exact searchable.askable _ parsed
  · intro askable
    refine ⟨relative ending listed, ?_⟩
    intro segments again
    cases parsed.symm.trans again
    exact askable

/-- With the default patterns and a limit for sizes, a scan ends exactly if what is below `src` is within the limits. -/
theorem exists_scan_iff_isWithin {most : Int} (scripted : settings.scriptPatterns = Setting.scriptPatterns.default)
    (styled : settings.stylePatterns = Setting.stylePatterns.default) (limited : settings.maxBytes = .ok most)
    (storable : tree.Storable) (located : tree.locate root = .ok here) :
    (∃ found, (scan tree root settings).result = .ok found) ↔
      tree.IsWithin root here "src" (HasEnding (scriptEndings ++ styleEndings)) := by
  rw [exists_scan_iff ⟨_, scripted⟩ ⟨_, styled⟩ storable.toProper located, and_iff_left fun _ _ => ⟨most, limited⟩]
  have some : Text.ofString ".ts" ∈ scriptEndings ++ styleEndings := by decide
  constructor
  · intro searchable
    have within : ∀ ending ∈ scriptEndings ++ styleEndings, tree.IsWithin root here "src" (ending <:+ ·) :=
      fun ending listed => (isSearchable_patternFor storable located listed).mp
        (searchable _ ((isPattern_iff scripted styled).mpr ⟨ending, listed, rfl⟩))
    refine ⟨(within _ some).top, (within _ some).folders, ?_⟩
    rintro between last entry stands ⟨ending, listed, ends⟩
    exact (within ending listed).selected between last entry stands ends
  · intro within text given
    obtain ⟨ending, listed, rfl⟩ := (isPattern_iff scripted styled).mp given
    refine (isSearchable_patternFor storable located listed).mpr ⟨within.top, within.folders, ?_⟩
    intro between last entry stands ends
    exact within.selected between last entry stands ⟨ending, listed, ends⟩

/-! ## What a scan reads -/

section

variable {most : Int} {paths endings : List Text} {path : Text} {content : FileContent}

/-- The file at a path from the root, an empty one if there is none. -/
def fileAt (tree : FileTree) (root : Path.Parsed) (path : Text) : FileContent :=
  (tree.file (root.append (Parsed.ofText path))).toOption.getD { bytes := [] }

/-- The file at a path from the root is too large, or may not be read. -/
def isPassedOver (tree : FileTree) (root : Path.Parsed) (most : Int) (path : Text) : Bool :=
  most < ((fileAt tree root path).bytes.length : Int) || !(fileAt tree root path).isReadable

/-- The source at a path from the root. -/
def sourceAt (tree : FileTree) (root : Path.Parsed) (path : Text) : Source :=
  ⟨path, textOf (fileAt tree root path).bytes⟩

/-- One pass reads the files that are not passed over, in the order of their paths. -/
theorem readAll_eq (stored : ∀ path ∈ paths, ∃ content, tree.file (root.append (Parsed.ofText path)) = .ok content) :
    (readAll tree root (.ok most) paths).result =
      .ok ((paths.filter (!isPassedOver tree root most ·)).map (sourceAt tree root),
        paths.filter (isPassedOver tree root most)) := by
  induction paths with
  | nil => rfl
  | cons path rest ih =>
    obtain ⟨⟨content, holds⟩, others⟩ := List.forall_mem_cons.mp stored
    have there : fileAt tree root path = content := by
      rw [fileAt, holds]
      rfl
    have read := readSource_eq tree root (.ok most) path
    simp only [holds, Except.map] at read
    have passed : isPassedOver tree root most path =
        (decide (most < (content.bytes.length : Int)) || !content.isReadable) := by
      rw [isPassedOver, there]
    by_cases large : most < (content.bytes.length : Int)
    · simp [readAll, Noted.liftFault, read, ih others, passed, large, Except.mapError, Except.bind]
    · cases readable : content.isReadable with
      | false => simp [readAll, Noted.liftFault, read, ih others, passed, large, readable, Except.mapError, Except.bind]
      | true =>
        simp [readAll, Noted.liftFault, read, ih others, passed, sourceAt, there, large, readable, Except.mapError,
          Except.bind]

/-- The sources with some endings below a root, in order and each once, with paths that lead to them. -/
structure Lists (tree : FileTree) (root : Path.Parsed) (here : Location) (settings : Settings)
    (endings paths : List Text) : Prop where
  members : ∀ path, path ∈ paths ↔
    ∃ names content, path = join names ∧ IsSource tree here settings endings names content
  increasing : paths.Pairwise fun earlier later => Text.compare earlier later = .lt
  stored : ∀ names content, IsSource tree here settings endings names content →
    tree.file (root.append (Parsed.ofText (join names))) = .ok content

theorem IsSource.steps (source : IsSource tree here settings endings names content) (storable : tree.Storable) :
    ∀ name ∈ names, IsStep name := fun name member =>
  (storable.isName source.stands name (List.mem_append_right here member)).isStep

theorem lists_of_select (storable : tree.Storable) (plain : IsPlainBackup settings.backupFolder)
    (located : tree.locate root = .ok here) (known : ∀ ending ∈ endings, ending ∈ scriptEndings ++ styleEndings)
    (selected : select tree root settings.backupFolder (.texts (endings.map patternFor)) = .ok paths) :
    Lists tree root here settings endings paths := by
  have members : ∀ path, path ∈ paths ↔
      ∃ names content, path = join names ∧ IsSource tree here settings endings names content := by
    intro path
    rw [mem_select selected, locationOf_eq located, selected_iff storable plain known]
  refine ⟨members, ?_, ?_⟩
  · simp only [select, bind, Outcome.bind_eq_ok, pure, Except.pure, Except.ok.injEq] at selected
    obtain ⟨values, -, found, -, rfl⟩ := selected
    exact Text.pairwise_sortedSet _
  · intro names content source
    have listed := (members (join names)).mpr ⟨names, content, rfl, source⟩
    obtain ⟨others, location, _, leadsTo⟩ := leadsTo_of_select storable.toProper located selected listed
    cases join_inj leadsTo.steps (source.steps storable) leadsTo.spelled.symm
    cases leadsTo.walks.symm.trans (storable.walk_of_entry source.stands)
    exact FileTree.file_eq_ok.mpr (FileTree.stat_eq_ok.mpr ⟨_, leadsTo.leads, source.stands⟩)

section

variable (lists : Lists tree root here settings endings paths)

include lists

theorem Lists.exists_file : ∀ path ∈ paths, ∃ content, tree.file (root.append (Parsed.ofText path)) = .ok content := by
  intro path listed
  obtain ⟨names, content, rfl, source⟩ := (lists.members path).mp listed
  exact ⟨content, lists.stored names content source⟩

theorem Lists.fileAt_eq (source : IsSource tree here settings endings names content) :
    fileAt tree root (join names) = content := by
  rw [fileAt, lists.stored names content source]
  rfl

theorem Lists.mem_read (found : Source) :
    found ∈ (paths.filter (!isPassedOver tree root most ·)).map (sourceAt tree root) ↔ ∃ names content,
      found = ⟨join names, textOf content.bytes⟩ ∧ IsSource tree here settings endings names content ∧
        (content.bytes.length : Int) ≤ most ∧ content.isReadable = true := by
  simp only [List.mem_map, List.mem_filter, lists.members]
  constructor
  · rintro ⟨_, ⟨⟨names, content, rfl, source⟩, usable⟩, rfl⟩
    refine ⟨names, content, by rw [sourceAt, lists.fileAt_eq source], source, ?_⟩
    simpa [isPassedOver, lists.fileAt_eq source] using usable
  · rintro ⟨names, content, rfl, source, usable⟩
    refine ⟨join names, ⟨⟨names, content, rfl, source⟩, ?_⟩, by rw [sourceAt, lists.fileAt_eq source]⟩
    simpa [isPassedOver, lists.fileAt_eq source] using usable

theorem Lists.mem_passed (path : Text) :
    path ∈ paths.filter (isPassedOver tree root most) ↔ ∃ names content,
      path = join names ∧ IsSource tree here settings endings names content ∧
        (most < (content.bytes.length : Int) ∨ content.isReadable = false) := by
  simp only [List.mem_filter, lists.members]
  constructor
  · rintro ⟨⟨names, content, rfl, source⟩, passed⟩
    exact ⟨names, content, rfl, source, by simpa [isPassedOver, lists.fileAt_eq source] using passed⟩
  · rintro ⟨names, content, rfl, source, passed⟩
    exact ⟨⟨names, content, rfl, source⟩, by simpa [isPassedOver, lists.fileAt_eq source] using passed⟩

end

theorem isSource_append {others : List Text} :
    IsSource tree here settings (endings ++ others) names content ↔
      IsSource tree here settings endings names content ∨ IsSource tree here settings others names content := by
  constructor
  · rintro ⟨stands, inside, ⟨last, isLast, ending, listed, ends⟩, kept, outside⟩
    rcases List.mem_append.mp listed with first | second
    · exact .inl ⟨stands, inside, ⟨last, isLast, ending, first, ends⟩, kept, outside⟩
    · exact .inr ⟨stands, inside, ⟨last, isLast, ending, second, ends⟩, kept, outside⟩
  · rintro (⟨stands, inside, ⟨last, isLast, ending, listed, ends⟩, kept, outside⟩ |
      ⟨stands, inside, ⟨last, isLast, ending, listed, ends⟩, kept, outside⟩)
    · exact ⟨stands, inside, ⟨last, isLast, ending, List.mem_append_left others listed, ends⟩, kept, outside⟩
    · exact ⟨stands, inside, ⟨last, isLast, ending, List.mem_append_right endings listed, ends⟩, kept, outside⟩

/-- No name ends like a script and like a stylesheet. -/
theorem not_script_and_style {other : FileContent} (script : IsSource tree here settings scriptEndings names content)
    (style : IsSource tree here settings styleEndings names other) : False := by
  have apart : ∀ ending ∈ scriptEndings, ∀ other ∈ styleEndings, ¬ ending <:+ other ∧ ¬ other <:+ ending := by
    decide
  obtain ⟨last, isLast, ending, listed, ends⟩ := script.ends
  obtain ⟨same, isSame, other, given, also⟩ := style.ends
  cases Option.mem_unique isLast isSame
  obtain ⟨first, second⟩ := apart ending listed other given
  rcases List.suffix_or_suffix_of_suffix ends also with longer | shorter
  · exact first longer
  · exact second shorter

/-- The paths of scripts and of stylesheets are apart. -/
theorem Lists.nodup_append {scriptPaths stylePaths : List Text} (storable : tree.Storable)
    (scripts : Lists tree root here settings scriptEndings scriptPaths)
    (styles : Lists tree root here settings styleEndings stylePaths) : (scriptPaths ++ stylePaths).Nodup := by
  apply (Text.nodup_of_pairwise scripts.increasing).append (Text.nodup_of_pairwise styles.increasing)
  intro path script style
  obtain ⟨names, content, rfl, first⟩ := (scripts.members path).mp script
  obtain ⟨others, more, same, second⟩ := (styles.members _).mp style
  cases join_inj (first.steps storable) (second.steps storable) same
  exact not_script_and_style first second

/-- What a scan has to find below a root, with a limit for the sizes of sources: each source is in exactly one of three
lists, according to its ending, its size and whether it may be read. -/
structure FindsSources (tree : FileTree) (here : Location) (settings : Settings) (most : Int) (found : Discovery) :
    Prop where
  files : ∀ path, path ∈ found.files ↔ ∃ names content,
    path = join names ∧ IsSource tree here settings (scriptEndings ++ styleEndings) names content
  distinct : found.files.Nodup
  shared : (found.scripts.map Source.path ++ found.stylesheets.map Source.path ++ found.skipped).Perm found.files
  scripts : ∀ source, source ∈ found.scripts ↔ ∃ names content, source = ⟨join names, textOf content.bytes⟩ ∧
    IsSource tree here settings scriptEndings names content ∧
      (content.bytes.length : Int) ≤ most ∧ content.isReadable = true
  stylesheets : ∀ source, source ∈ found.stylesheets ↔ ∃ names content, source = ⟨join names, textOf content.bytes⟩ ∧
    IsSource tree here settings styleEndings names content ∧
      (content.bytes.length : Int) ≤ most ∧ content.isReadable = true
  skipped : ∀ path, path ∈ found.skipped ↔ ∃ names content, path = join names ∧
    IsSource tree here settings (scriptEndings ++ styleEndings) names content ∧
      (most < (content.bytes.length : Int) ∨ content.isReadable = false)
  scriptsIncrease : (found.scripts.map Source.path).Pairwise fun earlier later => Text.compare earlier later = .lt
  stylesheetsIncrease :
    (found.stylesheets.map Source.path).Pairwise fun earlier later => Text.compare earlier later = .lt

theorem path_sourceAt (tree : FileTree) (root : Path.Parsed) (paths : List Text) :
    (paths.map (sourceAt tree root)).map Source.path = paths := by
  rw [List.map_map]
  exact List.map_id paths

/-- The lists of a scan, made from the paths of scripts and stylesheets, hold each source once. -/
theorem findsSources {scriptPaths stylePaths : List Text} (storable : tree.Storable)
    (scripts : Lists tree root here settings scriptEndings scriptPaths)
    (styles : Lists tree root here settings styleEndings stylePaths) :
    FindsSources tree here settings most {
      scripts := (scriptPaths.filter (!isPassedOver tree root most ·)).map (sourceAt tree root)
      stylesheets := (stylePaths.filter (!isPassedOver tree root most ·)).map (sourceAt tree root)
      files := Text.sortedSet (scriptPaths ++ stylePaths)
      skipped := scriptPaths.filter (isPassedOver tree root most) ++
        stylePaths.filter (isPassedOver tree root most) } where
  files := by
    intro path
    rw [Text.mem_sortedSet, List.mem_append, scripts.members, styles.members]
    simp only [isSource_append, and_or_left, exists_or]
  distinct := Text.nodup_of_pairwise (Text.pairwise_sortedSet _)
  shared := by
    have whole := scripts.nodup_append storable styles
    have parts := List.filter_append_perm (isPassedOver tree root most) (scriptPaths ++ stylePaths)
    have sorted : (scriptPaths ++ stylePaths).Perm (Text.sortedSet (scriptPaths ++ stylePaths)) := by
      apply (List.perm_ext_iff_of_nodup whole (Text.nodup_of_pairwise (Text.pairwise_sortedSet _))).mpr
      intro path
      rw [Text.mem_sortedSet]
    rw [path_sourceAt, path_sourceAt, ← List.filter_append, ← List.filter_append]
    exact List.perm_append_comm.trans (parts.trans sorted)
  scripts := scripts.mem_read
  stylesheets := styles.mem_read
  skipped := by
    intro path
    rw [List.mem_append, scripts.mem_passed, styles.mem_passed]
    simp only [isSource_append, or_and_right, and_or_left, exists_or, or_or_or_comm]
  scriptsIncrease := by
    rw [path_sourceAt]
    exact scripts.increasing.filter _
  stylesheetsIncrease := by
    rw [path_sourceAt]
    exact styles.increasing.filter _

/-- A scan with the default patterns that ends has found the sources. -/
theorem findsSources_of_scan {found : Discovery} (scripted : settings.scriptPatterns = Setting.scriptPatterns.default)
    (styled : settings.stylePatterns = Setting.stylePatterns.default) (limited : settings.maxBytes = .ok most)
    (plain : IsPlainBackup settings.backupFolder) (storable : tree.Storable) (located : tree.locate root = .ok here)
    (ran : (scan tree root settings).result = .ok found) : FindsSources tree here settings most found := by
  obtain ⟨scriptPaths, _, stylePaths, _, selectedScripts, -, selectedStyles, -, -⟩ := scan_stages ran
  have scripts : Lists tree root here settings scriptEndings scriptPaths := by
    rw [scripted, default_scriptPatterns] at selectedScripts
    exact lists_of_select storable plain located (fun _ => List.mem_append_left styleEndings) selectedScripts
  have styles : Lists tree root here settings styleEndings stylePaths := by
    rw [styled, default_stylePatterns] at selectedStyles
    exact lists_of_select storable plain located (fun _ => List.mem_append_right scriptEndings) selectedStyles
  simp only [scan, Noted.liftFault, Noted.result_bind, Noted.result_note, Noted.result_lift, selectedScripts,
    selectedStyles, limited, readAll_eq scripts.exists_file, readAll_eq styles.exists_file, Except.mapError,
    Except.bind, Noted.result_pure, Except.ok.injEq] at ran
  rw [← ran]
  exact findsSources storable scripts styles

end

/-! ## A scan of a mixed tree -/

/-- A folder named like a script with a stylesheet that is all ending, a script in the backup folder and one beside it
that begins like it, an installed package, a script that is too large, one that may not be read, and one that is not
below `src`. -/
def mixedTree : FileTree where
  here := []
  entries := [(["p"], .folder), (["p", "main.ts"], .file { bytes := [] }), (["p", "src"], .folder),
    (["p", "src", "x.ts"], .folder), (["p", "src", "x.ts", ".css"], .file { bytes := [0x61] }),
    (["p", "src", "old"], .folder), (["p", "src", "old", "a.ts"], .file { bytes := [] }),
    (["p", "src", "older.ts"], .file { bytes := [] }), (["p", "src", "node_modules"], .folder),
    (["p", "src", "node_modules", "b.ts"], .file { bytes := [] }),
    (["p", "src", "big.tsx"], .file { bytes := [0x61, 0x61, 0x61, 0x61, 0x61] }),
    (["p", "src", "shut.ts"], .file { bytes := [], isReadable := false })]

/-- A backup folder below `src`, and files of at most four bytes. -/
def mixedLayer : Layer := [("backup_dir", .text "src//old/"), ("max_file_size_mb", .float (.ofRatio false 4 1048576))]

theorem ofLayer_mixed : ∃ settings, Settings.ofLayer mixedLayer = .ok settings ∧
    settings.scriptPatterns = Setting.scriptPatterns.default ∧ settings.stylePatterns = Setting.stylePatterns.default ∧
    settings.maxBytes = .ok 4 ∧ settings.backupFolder = "src//old/" :=
  ⟨_, rfl, rfl, rfl, by decide, rfl⟩

theorem storable_mixedTree : mixedTree.Storable :=
  ⟨by decide, by decide⟩

/-- The scripts, the stylesheets and the files that are passed over in a scan. -/
def foundView (_ : Settings) (scanned : Except Failure Discovery) (_ : Except Failure (Report × FileTree)) :
    Option (List Text × List Text × List Text) :=
  scanned.toOption.map fun found => (found.scripts.map Source.path, found.stylesheets.map Source.path, found.skipped)

set_option maxRecDepth 100000 in
theorem sampleRun_mixed : Analysis.sampleRun mixedTree mixedLayer foundView =
    some (some (["src/older.ts"].map Text.ofString, ["src/x.ts/.css"].map Text.ofString,
      ["src/big.tsx", "src/shut.ts"].map Text.ofString)) := by
  simp only [Analysis.sampleRun, foundView, scan, select, Text.sortedSet, Text.mergeSort_eq_insertionSort]
  decide +kernel

/-- A folder that many folders below `src`. -/
def nest (depth : Nat) : List Text := "src" :: List.replicate depth ("a" : Text)

/-- A script in this folder. -/
def nestedScript (depth : Nat) : List Text := nest depth ++ [("x.ts" : Text)]

/-- Folders in one another, that many below `src` in the folder `p`. -/
def nestedTree : Nat → FileTree
  | 0 => { here := [], entries := [(["p"], .folder), (["p", "src"], .folder)] }
  | depth + 1 => (nestedTree depth).put ("p" :: nest (depth + 1)) .folder

/-- Folders in one another, and a script in the last. -/
def deepTree (depth : Nat) : FileTree := (nestedTree depth).put ("p" :: nestedScript depth) (.file { bytes := [] })

theorem nest_succ (depth : Nat) : nest (depth + 1) = nest depth ++ [("a" : Text)] := by
  simp [nest, List.replicate_succ']

theorem mem_nestedScript {depth : Nat} {name : Text} (member : name ∈ nestedScript depth) :
    name ∈ (["src", "a", "x.ts"] : List Text) := by
  simp only [nestedScript, nest, List.mem_append, List.mem_cons, List.mem_replicate, List.not_mem_nil,
    or_false] at member ⊢
  tauto

theorem storable_nestedScript (depth : Nat) : ∀ name ∈ ("p" : Text) :: nestedScript depth,
    IsName name ∧ FileTree.IsNameable name ∧ FileTree.isTooLong name = false := by
  have held : ∀ name ∈ (["p", "src", "a", "x.ts"] : List Text),
      IsName name ∧ FileTree.IsNameable name ∧ FileTree.isTooLong name = false := by decide
  intro name member
  rcases List.mem_cons.mp member with rfl | inside
  · exact held _ List.mem_cons_self
  · exact held name (List.mem_cons_of_mem _ (mem_nestedScript inside))

/-- The nested folders stand, and nothing stands deeper. -/
theorem nestedTree_stands (depth : Nat) : (nestedTree depth).Storable ∧
    FileTree.entry? (nestedTree depth) ("p" :: nest depth) = some .folder ∧
    ∀ location, (nest depth).length + 1 < location.length → FileTree.entry? (nestedTree depth) location = none := by
  induction depth with
  | zero =>
    refine ⟨⟨by decide, by decide⟩, rfl, ?_⟩
    intro location deeper
    refine FileTree.entry?_eq_none.mpr ⟨List.ne_nil_of_length_pos (by omega), ?_⟩
    rintro item member rfl
    have shallow : ∀ item ∈ (nestedTree 0).entries, item.1.length ≤ (nest 0).length + 1 := by decide
    exact absurd (shallow item member) (by omega)
  | succ depth ih =>
    obtain ⟨storable, folder, free⟩ := ih
    have longer : (nest (depth + 1)).length = (nest depth).length + 1 := by simp [nest]
    have vacant := free ("p" :: nest (depth + 1)) (by simp [longer])
    have housed : FileTree.entry? (nestedTree depth) (List.dropLast ("p" :: nest (depth + 1))) = some .folder := by
      rw [nest_succ, ← List.cons_append, List.dropLast_concat]
      exact folder
    refine ⟨storable.put vacant housed ?_ _, storable.entry?_put vacant housed .folder, ?_⟩
    · intro name member
      exact storable_nestedScript (depth + 1) name (List.mem_append_left [("x.ts" : Text)] member)
    · intro location deeper
      rw [nestedTree, FileTree.entry?_put_of_ne vacant]
      · exact free location (by omega)
      · rintro rfl
        exact absurd deeper (by simp)

theorem deepTree_stands (depth : Nat) : (deepTree depth).Storable ∧
    FileTree.entry? (deepTree depth) ("p" :: nest depth) = some .folder ∧
    FileTree.entry? (deepTree depth) ("p" :: nestedScript depth) = some (.file { bytes := [] }) := by
  obtain ⟨storable, folder, free⟩ := nestedTree_stands depth
  have vacant := free ("p" :: nestedScript depth) (by simp [nestedScript])
  have housed : FileTree.entry? (nestedTree depth) (List.dropLast ("p" :: nestedScript depth)) = some .folder := by
    rw [nestedScript, ← List.cons_append, List.dropLast_concat]
    exact folder
  exact ⟨storable.put vacant housed (storable_nestedScript depth) _,
    FileTree.entry?_put_of_vacant vacant folder _, storable.entry?_put vacant housed _⟩

/-- The script in the last folder is a source, with the default backup folder. -/
theorem isSource_deepTree {settings : Settings} (folder : settings.backupFolder = "deadref-deleted-files")
    (depth : Nat) :
    IsSource (deepTree depth) ["p"] settings scriptEndings (nestedScript depth) { bytes := [] } := by
  refine ⟨(deepTree_stands depth).2.2, ⟨List.replicate depth ("a" : Text) ++ [("x.ts" : Text)], by simp, rfl⟩,
    ⟨("x.ts" : Text), List.getLast?_concat, ".ts", by decide, by decide⟩, ?_, ?_⟩
  · intro name member
    have named : ∀ name ∈ (["src", "a", "x.ts"] : List Text), name ≠ "node_modules" ∧ name ≠ ".git" := by decide
    exact named name (mem_nestedScript member)
  · rintro ⟨rest, -, same⟩
    have place : backupPlace (["p"] : List Text) settings = (["p", "deadref-deleted-files"] : List Text) := by
      rw [backupPlace, folder]
      decide
    rw [place] at same
    have second : some ("src" : Text) = some ("deadref-deleted-files" : Text) :=
      congrArg (fun location => location[1]?) same
    exact absurd second (by decide)

/-- A scan does not end if the folders below `src` are too deep. -/
theorem not_scan_deepTree {settings : Settings} {most : Int} {depth : Nat} (deep : FileTree.depthLimit ≤ depth)
    (scripted : settings.scriptPatterns = Setting.scriptPatterns.default)
    (styled : settings.stylePatterns = Setting.stylePatterns.default) (limited : settings.maxBytes = .ok most)
    (found : Discovery) : (scan (deepTree depth) Analysis.sampleRoot settings).result ≠ .ok found := by
  intro ran
  obtain ⟨storable, folder, -⟩ := deepTree_stands depth
  have top : FileTree.entry? (deepTree depth) (["p"] : List Text) = some .folder :=
    storable.folder_above folder rfl (List.cons_ne_nil _ _)
  have located : (deepTree depth).locate Analysis.sampleRoot = .ok (["p"] : List Text) :=
    FileTree.locate_eq_ok.mpr ⟨by decide, storable.walk_of_entry top⟩
  have within := (exists_scan_iff_isWithin scripted styled limited storable located).mp ⟨found, ran⟩
  obtain ⟨shallow, -⟩ := within.folders (List.replicate depth ("a" : Text)) folder
  rw [List.length_replicate] at shallow
  omega

end Discovery

end Deadwood
