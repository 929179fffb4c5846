import Deadwood.Discovery
import Deadwood.Proofs.FileTree
import Deadwood.Proofs.Text

/-!
# What discovery finds

The files of a scan are described without the scan: those that a pattern
selects and no rule leaves out, and among them the ones whose text can be read.
A scan that ends finds exactly these, in both of its passes.
-/

namespace Deadwood.Discovery

variable {tree : FileTree} {root : Path.Parsed} {settings : Settings} {path text : Text}

/-- A pattern selects the file at a path, which is not one that holds no sources. -/
def Selected (tree : FileTree) (root : Location) (backupFolder : Text) (patterns : Value)
    (path : Text) : Prop :=
  ∃ values, patterns.items = .ok values ∧ ∃ value ∈ values, ∃ pattern, patternOf value = .ok pattern ∧
    (∃ names ∈ tree.glob root pattern, path = Path.join names) ∧ isCandidate backupFolder path = true

/-- The file at a path from the root is not too large and has a text. -/
def Reads (tree : FileTree) (root : Path.Parsed) (limit : Except Fault Int) (path text : Text) :
    Prop :=
  let place := root.append (Path.Parsed.ofText path)
  ∃ bytes most, tree.content place = .ok bytes ∧ limit = .ok most ∧ (bytes.length : Int) ≤ most ∧
    tree.readText place = .ok text

theorem patternOf_eq_ok {value : Value} {pattern : List GlobSegment}
    (read : patternOf value = .ok pattern) :
    ∃ text, value = .text text ∧ GlobSegment.ofText text = .ok pattern := by
  cases value with
  | text text => exact ⟨text, rfl, read⟩
  | _ => cases read

/-- A search ends if its pattern can be read and every place on its way can be asked about. -/
theorem search_eq_ok {value : Value} {paths : List Text} :
    search tree root value = .ok paths ↔ ∃ pattern, patternOf value = .ok pattern ∧
      (∀ visit ∈ tree.visits (locationOf tree root) pattern, visit.fault? root = none) ∧
      paths = (tree.glob (locationOf tree root) pattern).map Path.join := by
  simp only [search, bind, Outcome.bind_eq_ok, ← List.findSome?_eq_none_iff]
  refine exists_congr fun pattern => and_congr_right fun _ => ?_
  split
  case h_1 fault found => simp [found, throw, throwThe, MonadExceptOf.throw]
  case h_2 clear => simp [clear, pure, Except.pure, eq_comm]

/-- What is no candidate can be left out pattern by pattern. -/
theorem select_eq (tree : FileTree) (root : Path.Parsed) (folder : Text) (patterns : Value) :
    select tree root folder patterns = patterns.items.bind fun values =>
      (values.mapM fun value => (search tree root value).map (List.filter (isCandidate folder))).map
        fun found => Text.sortedSet found.flatten := by
  simp only [select, bind, Outcome.mapM_map]
  refine Outcome.bind_congr fun values => ?_
  cases values.mapM (search tree root) with
  | error fault => rfl
  | ok found => simp [Except.bind, Except.map, pure, Except.pure, List.filter_flatten]

theorem mem_select {folder : Text} {patterns : Value} {paths : List Text}
    (ran : select tree root folder patterns = .ok paths) :
    path ∈ paths ↔ Selected tree (locationOf tree root) folder patterns path := by
  simp only [select, bind, Outcome.bind_eq_ok, pure, Except.pure, Except.ok.injEq] at ran
  obtain ⟨values, items, found, mapped, rfl⟩ := ran
  have members := Outcome.mem_of_mapM mapped
  simp only [Text.mem_sortedSet, List.mem_filter, List.mem_flatten, members]
  constructor
  · rintro ⟨⟨paths, ⟨value, listed, searched⟩, member⟩, candidate⟩
    obtain ⟨pattern, parsed, -, rfl⟩ := search_eq_ok.mp searched
    obtain ⟨names, hit, rfl⟩ := List.mem_map.mp member
    exact ⟨values, items, value, listed, pattern, parsed, ⟨names, hit, rfl⟩, candidate⟩
  · rintro ⟨others, same, value, listed, pattern, parsed, ⟨names, hit, rfl⟩, candidate⟩
    rw [items, Except.ok.injEq] at same
    subst same
    obtain ⟨paths, searched⟩ := Outcome.exists_of_mapM mapped listed
    obtain ⟨again, reparsed, -, rfl⟩ := search_eq_ok.mp searched
    cases parsed.symm.trans reparsed
    exact ⟨⟨_, ⟨value, listed, searched⟩, List.mem_map_of_mem hit⟩, candidate⟩

/-! ## Texts of files -/

/-- The text of the bytes of a source. -/
def textOf (bytes : Bytes) : Text := Encoding.unifyLines (Encoding.decodeUtf8 .replace bytes)

theorem readText_eq_ok {place : Path.Parsed} :
    tree.readText place = .ok text ↔ ∃ bytes, tree.content place = .ok bytes ∧ text = textOf bytes := by
  rw [FileTree.readText]
  cases tree.content place with
  | error fault => simp [throw, throwThe, MonadExceptOf.throw]
  | ok bytes =>
    constructor
    · intro read
      cases read
      exact ⟨bytes, rfl, rfl⟩
    · rintro ⟨_, ⟨⟩, rfl⟩
      rfl

/-- A file is read unless there is none, it is too large or it may not be read; that depends on nothing but the file. -/
theorem readSource_eq (tree : FileTree) (root : Path.Parsed) (limit : Except Fault Int) (path : Text) :
    readSource tree root limit path =
      let place := root.append (Path.Parsed.ofText path)
      match tree.file place with
      | .error fault => .ok (.error ("Cannot stat: " ++ fault.message place.toText))
      | .ok file => limit.map fun most =>
        if most < (file.bytes.length : Int) then
          .error ("File too large (" ++ Text.ofNat file.bytes.length ++ " bytes)")
        else if file.isReadable then .ok (textOf file.bytes)
        else .error ("OS error: " ++ SystemFault.denied.message place.toText) := by
  simp only [readSource]
  cases stored : tree.file (root.append (Path.Parsed.ofText path)) with
  | error fault => rfl
  | ok file =>
    cases limit with
    | error fault => rfl
    | ok most =>
      have content := FileTree.content_of_file stored
      simp only [bind, Except.bind, Except.map]
      split
      case isTrue => rfl
      case isFalse =>
        cases readable : file.isReadable <;> rw [FileTree.readText, content, readable] <;> rfl

theorem readSource_eq_ok {limit : Except Fault Int} :
    readSource tree root limit path = .ok (.ok text) ↔ Reads tree root limit path text := by
  simp only [readSource_eq, Reads, readText_eq_ok]
  cases stored : tree.file (root.append (Path.Parsed.ofText path)) with
  | error fault => simp [FileTree.content, stored, bind, Except.bind]
  | ok file =>
    rw [FileTree.content_of_file stored]
    cases limit with
    | error fault => simp [Except.map]
    | ok most =>
      simp only [Except.map, Except.ok.injEq]
      by_cases large : most < (file.bytes.length : Int)
      · cases file.isReadable <;> simp [large]
      · cases file.isReadable with
        | false => simp [large]
        | true => simp [Int.not_lt.mp large, large, @eq_comm _ text]

theorem Reads.text_eq {limit : Except Fault Int} {other : Text}
    (reads : Reads tree root limit path text) (rereads : Reads tree root limit path other) :
    text = other := by
  obtain ⟨bytes, most, -, -, -, read⟩ := reads
  obtain ⟨bytes', most', -, -, -, reread⟩ := rereads
  rw [read, Except.ok.injEq] at reread
  exact reread

/-- One pass reads exactly the readable files among its paths. -/
theorem mem_readAll {limit : Except Fault Int} {paths skipped : List Text} {sources : List Source}
    (ran : (readAll tree root limit paths).result = .ok (sources, skipped)) (source : Source) :
    source ∈ sources ↔ source.path ∈ paths ∧ Reads tree root limit source.path source.text := by
  induction paths generalizing sources skipped with
  | nil =>
    cases ran
    simp
  | cons path rest ih =>
    simp only [readAll, Noted.result_bind, Outcome.bind_eq_ok, Outcome.liftFault_eq_ok] at ran
    obtain ⟨outcome, read, ran⟩ := ran
    cases outcome with
    | ok text =>
      simp only [Noted.result_bind, Outcome.bind_eq_ok] at ran
      obtain ⟨⟨others, unread⟩, later, done⟩ := ran
      cases done
      have reads := readSource_eq_ok.mp read
      rw [List.mem_cons, List.mem_cons, ih later, or_and_right]
      refine or_congr_left ⟨?_, ?_⟩
      · rintro rfl
        exact ⟨rfl, reads⟩
      · rintro ⟨rfl, rereads⟩
        rw [reads.text_eq rereads]
    | error reason =>
      simp only [Noted.result_bind, Outcome.bind_eq_ok] at ran
      obtain ⟨-, -, ⟨others, unread⟩, later, done⟩ := ran
      cases done
      rw [ih later, List.mem_cons, or_and_right]
      refine (or_iff_right ?_).symm
      rintro ⟨rfl, reads⟩
      rw [readSource_eq_ok.mpr reads, Except.ok.injEq] at read
      cases read

/-! ## Files passed over -/

theorem readSource_text {limit : Except Fault Int}
    (read : readSource tree root limit path = .ok (.ok text)) :
    ∃ bytes most, tree.content (root.append (Path.Parsed.ofText path)) = .ok bytes ∧
      limit = .ok most ∧ ¬ most < (bytes.length : Int) ∧ text = textOf bytes := by
  obtain ⟨bytes, most, stored, given, small, shown⟩ := readSource_eq_ok.mp read
  obtain ⟨again, same, text⟩ := readText_eq_ok.mp shown
  cases stored.symm.trans same
  exact ⟨bytes, most, stored, given, Int.not_lt.mpr small, text⟩

theorem readSource_of_readAll {limit : Except Fault Int} {paths : List Text}
    {read : List Source × List Text} (ran : (readAll tree root limit paths).result = .ok read) :
    ∀ path ∈ paths, ∃ outcome, readSource tree root limit path = .ok outcome := by
  induction paths generalizing read with
  | nil => simp
  | cons path rest ih =>
    simp only [readAll, Noted.result_bind, Outcome.bind_eq_ok, Outcome.liftFault_eq_ok] at ran
    obtain ⟨outcome, first, ran⟩ := ran
    have later : ∃ others, (readAll tree root limit rest).result = .ok others := by
      cases outcome with
      | ok text =>
        simp only [Noted.result_bind, Outcome.bind_eq_ok] at ran
        obtain ⟨others, later, -⟩ := ran
        exact ⟨others, later⟩
      | error reason =>
        simp only [Noted.result_bind, Outcome.bind_eq_ok] at ran
        obtain ⟨-, -, others, later, -⟩ := ran
        exact ⟨others, later⟩
    obtain ⟨others, later⟩ := later
    intro other member
    rcases List.mem_cons.mp member with rfl | member
    · exact ⟨outcome, first⟩
    · exact ih later other member

theorem exists_readAll {limit : Except Fault Int} {paths : List Text}
    (reads : ∀ path ∈ paths, ∃ outcome, readSource tree root limit path = .ok outcome) :
    ∃ read, (readAll tree root limit paths).result = .ok read := by
  induction paths with
  | nil => exact ⟨_, rfl⟩
  | cons path rest ih =>
    obtain ⟨outcome, first⟩ := reads path List.mem_cons_self
    obtain ⟨others, later⟩ := ih fun other member => reads other (List.mem_cons_of_mem path member)
    cases outcome with
    | ok text =>
      exact ⟨(⟨path, text⟩ :: others.1, others.2), by
        simp [readAll, Noted.liftFault, first, later, Except.mapError, Except.bind]⟩
    | error reason =>
      exact ⟨(others.1, path :: others.2), by
        simp [readAll, Noted.liftFault, first, later, Except.mapError, Except.bind]⟩

/-- One pass over files passes over exactly those that cannot be read. -/
theorem mem_skipped_readAll {limit : Except Fault Int} {paths skipped : List Text}
    {sources : List Source} (ran : (readAll tree root limit paths).result = .ok (sources, skipped))
    (path : Text) : path ∈ skipped ↔
      path ∈ paths ∧ ∃ reason, readSource tree root limit path = .ok (.error reason) := by
  induction paths generalizing sources skipped with
  | nil =>
    cases ran
    simp
  | cons first rest ih =>
    simp only [readAll, Noted.result_bind, Outcome.bind_eq_ok, Outcome.liftFault_eq_ok] at ran
    obtain ⟨outcome, read, ran⟩ := ran
    cases outcome with
    | ok text =>
      simp only [Noted.result_bind, Outcome.bind_eq_ok] at ran
      obtain ⟨⟨others, unread⟩, later, done⟩ := ran
      cases done
      rw [ih later, List.mem_cons, or_and_right]
      refine (or_iff_right ?_).symm
      rintro ⟨rfl, reason, failed⟩
      rw [read, Except.ok.injEq] at failed
      cases failed
    | error reason =>
      simp only [Noted.result_bind, Outcome.bind_eq_ok] at ran
      obtain ⟨-, -, ⟨others, unread⟩, later, done⟩ := ran
      cases done
      rw [List.mem_cons, List.mem_cons, ih later, or_and_right]
      refine or_congr_left ⟨?_, fun failed => failed.1⟩
      rintro rfl
      exact ⟨rfl, reason, read⟩

/-! ## Scans -/

/-- What a scan has to find below a root. -/
structure Finds (tree : FileTree) (root : Path.Parsed) (settings : Settings) (sources : Discovery) :
    Prop where
  scripts : ∀ source, source ∈ sources.scripts ↔
    Selected tree (locationOf tree root) settings.backupFolder settings.scriptPatterns source.path ∧
      Reads tree root settings.maxBytes source.path source.text
  stylesheets : ∀ source, source ∈ sources.stylesheets ↔
    Selected tree (locationOf tree root) settings.backupFolder settings.stylePatterns source.path ∧
      Reads tree root settings.maxBytes source.path source.text
  files : ∀ path, path ∈ sources.files ↔
    Selected tree (locationOf tree root) settings.backupFolder settings.scriptPatterns path ∨
      Selected tree (locationOf tree root) settings.backupFolder settings.stylePatterns path

/-- The selections and the passes behind a scan that ends. -/
theorem scan_stages {sources : Discovery} (ran : (scan tree root settings).result = .ok sources) :
    ∃ scriptPaths unreadScripts stylePaths unreadStyles,
      select tree root settings.backupFolder settings.scriptPatterns = .ok scriptPaths ∧
      (readAll tree root settings.maxBytes scriptPaths).result = .ok (sources.scripts, unreadScripts) ∧
      select tree root settings.backupFolder settings.stylePatterns = .ok stylePaths ∧
      (readAll tree root settings.maxBytes stylePaths).result = .ok (sources.stylesheets, unreadStyles) ∧
      (∀ path, path ∈ sources.files ↔ path ∈ scriptPaths ∨ path ∈ stylePaths) ∧
      sources.skipped = unreadScripts ++ unreadStyles := by
  simp only [scan, Noted.result_bind, Outcome.bind_eq_ok, Outcome.liftFault_eq_ok,
    Noted.result_note, Noted.result_pure, Except.ok.injEq, Prod.exists] at ran
  obtain ⟨-, -, scriptPaths, selectedScripts, scripts, unreadScripts, readScripts, stylePaths,
    selectedStyles, styles, unreadStyles, readStyles, -, -, rfl⟩ := ran
  exact ⟨scriptPaths, unreadScripts, stylePaths, unreadStyles, selectedScripts, readScripts, selectedStyles,
    readStyles, fun path => by rw [Text.mem_sortedSet, List.mem_append], rfl⟩

theorem scan_finds {sources : Discovery} (ran : (scan tree root settings).result = .ok sources) :
    Finds tree root settings sources := by
  obtain ⟨scriptPaths, _, stylePaths, _, selectedScripts, readScripts, selectedStyles, readStyles, files, -⟩ :=
    scan_stages ran
  refine ⟨fun source => ?_, fun source => ?_, fun path => ?_⟩
  · rw [mem_readAll readScripts, mem_select selectedScripts]
  · rw [mem_readAll readStyles, mem_select selectedStyles]
  · rw [files, mem_select selectedScripts, mem_select selectedStyles]

/-- A scan passes over exactly the selected files that cannot be read. -/
theorem mem_skipped_scan {sources : Discovery} (ran : (scan tree root settings).result = .ok sources)
    (path : Text) : path ∈ sources.skipped ↔ path ∈ sources.files ∧
      ∃ reason, readSource tree root settings.maxBytes path = .ok (.error reason) := by
  obtain ⟨scriptPaths, _, stylePaths, _, -, readScripts, -, readStyles, files, skipped⟩ := scan_stages ran
  rw [files, skipped, List.mem_append, mem_skipped_readAll readScripts, mem_skipped_readAll readStyles, or_and_right]

theorem readSource_of_scan {sources : Discovery} (ran : (scan tree root settings).result = .ok sources)
    (found : path ∈ sources.files) :
    ∃ outcome, readSource tree root settings.maxBytes path = .ok outcome := by
  obtain ⟨scriptPaths, _, stylePaths, _, -, readScripts, -, readStyles, files, -⟩ := scan_stages ran
  rcases (files path).mp found with script | stylesheet
  · exact readSource_of_readAll readScripts path script
  · exact readSource_of_readAll readStyles path stylesheet

end Deadwood.Discovery
