import Deadwood.Proofs.Glob
import Deadwood.Proofs.LedgerHistory
import Deadwood.Proofs.Stages

/-!
# Imports that are reported as unused

A report lists what is imported and what is unused, and the first list mixes
files with packages.  A path stands in both lists exactly if it is the path of
an unused file and at the same time the name of an imported package.  A name
with a segment `src` is never taken for a package, so the two lists are apart
for files found below such a folder, as by the default patterns.
-/

namespace Deadwood

/-! ## Paths of found files -/

namespace Path

variable {names : List Text}

/-- Names put together with slashes do not look like a web address. -/
theorem not_contains_scheme (held : ∀ name ∈ names, IsSegment name) :
    Text.contains (join names) "://" = false := by
  rw [Bool.eq_false_iff, ne_eq, Text.contains_iff]
  rintro ⟨before, after, split⟩
  cases names with
  | nil => simp [join, Text.joinWith, Text.ofString] at split
  | cons first rest =>
    have parts : segments (join (first :: rest)) = first :: rest :=
      Text.splitOn_joinWith (by simp) fun name member => (held name member).2
    -- Between the two slashes of an address there is an empty segment.
    have address : before ++ Text.ofString "://" ++ after =
        (before ++ [Codepoint.char ':']) ++ slash :: ([] ++ slash :: after) := by
      simp [Text.ofString, slash]
    rw [← split, address, segments, Text.splitOn_append_separator,
      Text.splitOn_append_separator] at parts
    have empty : [] ∈ first :: rest := by
      rw [← parts]
      simp [Text.splitOn]
    exact (held [] empty).1 rfl

theorem mem_properSegments_src {path : Text} (listed : ("src" : Text) ∈ segments path) :
    ("src" : Text) ∈ properSegments path :=
  List.mem_filter.mpr ⟨listed, by decide⟩

theorem mem_segments_join {name : Text} (held : ∀ name ∈ names, IsSegment name)
    (member : name ∈ names) : name ∈ segments (join names) := by
  rw [segments, join, Text.splitOn_joinWith (List.ne_nil_of_mem member) fun name listed =>
    (held name listed).2]
  exact member

end Path

namespace Discovery

variable {tree : FileTree} {root : Location} {folder path : Text} {patterns : Value}

/-- Whether the pattern that a value stands for spells a name out as one of its segments. -/
def spells (name : Text) (value : Value) : Bool :=
  match patternOf value with
  | .ok pattern => pattern.contains (.exact name) && !pattern.contains .done
  | .error _ => false

/-- All patterns spell a name out. -/
def Spell (patterns : Value) (name : Text) : Prop :=
  ∃ values, patterns.items = .ok values ∧ ∀ value ∈ values, spells name value = true

/-- A found path is made of names that a folder can hold, among them all that its patterns spell. -/
theorem Selected.names (selected : Selected tree root folder patterns path) (named : tree.HasNames) :
    ∃ names, path = Path.join names ∧ (∀ name ∈ names, Path.IsSegment name) ∧
      ∀ name, Spell patterns name → name ∈ names := by
  obtain ⟨values, items, value, listed, pattern, read, ⟨names, hit, rfl⟩, -⟩ := selected
  obtain ⟨held, complete⟩ := FileTree.AllNames.glob named (fun _ => by decide) hit
  refine ⟨names, rfl, held, ?_⟩
  rintro name ⟨others, same, spelled⟩
  rw [items, Except.ok.injEq] at same
  subst same
  have spells := spelled _ listed
  rw [Discovery.spells, read] at spells
  simp only [Bool.and_eq_true, List.contains_iff_mem, Bool.not_eq_true', ← Bool.not_eq_true] at spells
  exact complete spells.2 name spells.1

theorem Selected.segment (selected : Selected tree root folder patterns path)
    (named : tree.HasNames) {name : Text} (spell : Spell patterns name) :
    name ∈ Path.segments path := by
  obtain ⟨names, rfl, held, complete⟩ := selected.names named
  exact Path.mem_segments_join held (complete name spell)

set_option maxRecDepth 100000 in
theorem spell_scripts : Spell Setting.scriptPatterns.default "src" :=
  ⟨_, rfl, by decide⟩

set_option maxRecDepth 100000 in
theorem spell_stylesheets : Spell Setting.stylePatterns.default "src" :=
  ⟨_, rfl, by decide⟩

end Discovery

/-! ## References taken for packages -/

namespace Project

open Resolution

variable {project : Project} {request : Request} {reference : Reference} {name : Text}

theorem applyRule_eq_package {rule : Rule} (taken : project.applyRule rule request = .package name) :
    rule = .dependency := by
  cases rule with
  | dependency => rfl
  | aliased | relative | sourcePath => exact absurd taken (finish_ne_package name)
  | styleTilde =>
    simp only [applyRule] at taken
    split at taken
    · exact absurd taken (finish_ne_package name)
    · cases taken
  | _ => cases taken

theorem ruleFor_eq_dependency (decided : project.ruleFor request = .dependency) :
    (Text.contains request.text "://" = true ∨
      ("src" : Text) ∉ Path.properSegments request.text) ∧
    (request.site = .staticImport ∨ request.site = .dynamicImport) := by
  simp only [ruleFor] at decided
  split at decided
  · cases decided
  split at decided
  · cases decided
  split at decided
  · cases decided
  split at decided
  · cases decided
  case isFalse elsewhere =>
    split at decided
    case isFalse => cases decided
    case isTrue imported =>
      simp only [Bool.or_eq_true, decide_eq_true_eq] at imported
      refine ⟨?_, imported⟩
      by_cases address : Text.contains request.text "://" = true
      · exact .inl address
      · refine .inr fun listed => elsewhere ?_
        have step : Path.IsStep "src" := ⟨by decide, by decide, by decide⟩
        have part := step.mem_parts_iff.mpr listed
        simp [address, part]

/-- Only an import is taken for a package, and its name is an address or has no segment `src`. -/
theorem resolve_package (taken : project.resolve reference = .package name) :
    (Text.contains name "://" = true ∨ ("src" : Text) ∉ Path.properSegments name) ∧
    (reference.site = .staticImport ∨ reference.site = .dynamicImport) := by
  obtain ⟨-, request, made, rfl⟩ := resolve_eq_package taken
  rw [resolve_of_request made, dropPackages_eq_package] at taken
  have decided := ruleFor_eq_dependency (applyRule_eq_package taken.1)
  obtain ⟨-, -, -, importer, -, rfl⟩ := request?_eq_some.mp made
  exact decided

end Project

namespace Analysis

variable {tree after : FileTree} {path root : Path.Parsed} {settings : Settings} {report : Report}

/-! ## The two lists of a report -/

/-- Some reference written in the project has a meaning. -/
def Meant (tree : FileTree) (root : Path.Parsed) (settings : Settings) (files : List Text)
    (resolution : Resolution) : Prop :=
  ∃ reference, Written tree root settings reference ∧
    (resolverOf root settings files).project.resolve reference = resolution

theorem mem_imports_of_entered {files : List Text} {resolutions : List Resolution} {ledger : Ledger}
    {name : Text} (entered : ledgerOf settings files resolutions = .ok ledger) :
    name ∈ ledger.imports ↔ .projectFile name ∈ resolutions ∨ .package name ∈ resolutions := by
  simp only [ledgerOf, bind, Outcome.bind_eq_ok, pure, Except.pure, Except.ok.injEq] at entered
  obtain ⟨suffixes, suffixed, lines, lined, rfl⟩ := entered
  rw [Ledger.mem_imports]
  simp only [Ledger.close, Ledger.mem_referenced_addAll, Ledger.mem_packages_addAll]
  simp only [Ledger.start, List.not_mem_nil, false_or]

/-- A found file with a folder `src` on its path is not the name of a package. -/
theorem not_meant_package {sources : Discovery} {file : Text} (named : tree.HasNames)
    (finds : Discovery.Finds tree root settings sources) (found : file ∈ sources.files)
    (listed : ("src" : Text) ∈ Path.segments file) :
    ¬ Meant tree root settings sources.files (.package file) := by
  rintro ⟨reference, -, taken⟩
  have plain : Text.contains file "://" = false := by
    rcases (finds.files file).mp found with selected | selected
    · obtain ⟨names, rfl, held, -⟩ := selected.names named
      exact Path.not_contains_scheme held
    · obtain ⟨names, rfl, held, -⟩ := selected.names named
      exact Path.not_contains_scheme held
  rcases (Project.resolve_package taken).1 with address | apart
  · rw [plain] at address
    cases address
  · exact apart (Path.mem_properSegments_src listed)

/-- A run that ends reports as imports what its references mean, files and packages alike, and as
unused the found files that are not withheld and that no reference means.  A path stands in both lists
exactly if it is unused and some import of that name is taken for a package.  Such a path has no
segment `src`, so with the default patterns the lists are disjoint. -/
theorem imports_meet_unused_iff (named : tree.HasNames)
    (ran : (run tree path settings).result = .ok (report, after)) :
    ∃ sources, (Discovery.scan tree (tree.resolve path) settings).result = .ok sources ∧
      (∀ file, file ∈ report.unused ↔ file ∈ sources.files ∧ ¬ Withholds settings file ∧
        ¬ Meant tree (tree.resolve path) settings sources.files (.projectFile file)) ∧
      (∀ name, name ∈ report.imports ↔
        Meant tree (tree.resolve path) settings sources.files (.projectFile name) ∨
        Meant tree (tree.resolve path) settings sources.files (.package name)) ∧
      (∀ file ∈ report.unused, file ∈ report.imports ↔
        ∃ reference, Written tree (tree.resolve path) settings reference ∧
          (reference.site = .staticImport ∨ reference.site = .dynamicImport) ∧
          (resolverOf (tree.resolve path) settings sources.files).project.resolve reference =
            .package file) ∧
      (∀ file ∈ report.unused, ("src" : Text) ∈ Path.segments file → file ∉ report.imports) ∧
      (settings.scriptPatterns = Setting.scriptPatterns.default →
        settings.stylePatterns = Setting.stylePatterns.default →
        report.imports.Disjoint report.unused) := by
  obtain ⟨sources, scripts, stylesheets, ledger, unused, declared, moved, scanned, scannedScripts,
    scannedStyles, entered, reported, rfl⟩ := report_eq ran
  have finds := Discovery.scan_finds scanned
  have members := mem_resolutions finds scannedScripts scannedStyles
  have reports : ∀ file, file ∈ unused ↔ file ∈ sources.files ∧ ¬ Withholds settings file ∧
      ¬ Meant tree (tree.resolve path) settings sources.files (.projectFile file) := by
    intro file
    rw [mem_unused_of_entered entered reported, members]
    rfl
  have imports : ∀ name, name ∈ ledger.imports ↔
      Meant tree (tree.resolve path) settings sources.files (.projectFile name) ∨
      Meant tree (tree.resolve path) settings sources.files (.package name) := by
    intro name
    rw [mem_imports_of_entered entered, members, members]
    rfl
  have apart : ∀ file ∈ unused, ("src" : Text) ∈ Path.segments file → file ∉ ledger.imports := by
    intro file listed below imported
    obtain ⟨found, -, unmeant⟩ := (reports file).mp listed
    rcases (imports file).mp imported with meant | meant
    · exact unmeant meant
    · exact not_meant_package named finds found below meant
  refine ⟨sources, scanned, reports, imports, ?_, apart, ?_⟩
  · intro file listed
    obtain ⟨-, -, unmeant⟩ := (reports file).mp listed
    constructor
    · intro imported
      obtain ⟨reference, written, taken⟩ := ((imports file).mp imported).resolve_left unmeant
      exact ⟨reference, written, (Project.resolve_package taken).2, taken⟩
    · rintro ⟨reference, written, -, taken⟩
      exact (imports file).mpr (.inr ⟨reference, written, taken⟩)
  · intro scripted styled file imported listed
    obtain ⟨found, -⟩ := (reports file).mp listed
    refine apart file listed ?_ imported
    rcases (finds.files file).mp found with selected | selected
    · exact selected.segment named (scripted ▸ Discovery.spell_scripts)
    · exact selected.segment named (styled ▸ Discovery.spell_stylesheets)

/-- A script that imports a package and one of the two modules beside it. -/
def packageTree : FileTree := sampleTree "import 'react'; import './used'" ["used.ts", "orphan.ts"]

set_option maxRecDepth 100000 in
theorem sampleRun_package :
    sampleRun packageTree [] (ended fun _ _ report _ => (report.imports, report.unused)) =
      some (some (["src/used.ts", "react"].map Text.ofString, ["src/main.ts", "src/orphan.ts"].map Text.ofString)) := by
  simp only [sampleRun, run, ledgerOf, Discovery.scan, Discovery.select, Settings.ignoredSuffixes,
    Text.sortedSet, Text.mergeSort_eq_insertionSort]
  decide +kernel

set_option maxRecDepth 100000 in
theorem ofLayer_nil : ∃ settings, Settings.ofLayer [] = .ok settings ∧
    settings.scriptPatterns = Setting.scriptPatterns.default ∧
    settings.stylePatterns = Setting.stylePatterns.default :=
  ⟨_, rfl, rfl, rfl⟩

/-- With the default patterns, a project that imports a file and a package. -/
theorem imports_meet_unused_iff_package : ∃ settings report after,
    packageTree.HasNames ∧ Settings.ofLayer [] = .ok settings ∧
    (run packageTree sampleRoot settings).result = .ok (report, after) ∧
    report.imports = ["src/used.ts", "react"].map Text.ofString ∧
    report.unused = ["src/main.ts", "src/orphan.ts"].map Text.ofString ∧
    report.imports.Disjoint report.unused := by
  obtain ⟨settings, -, report, after, accepted, -, ran, seen⟩ := sampleRun_ended sampleRun_package
  obtain ⟨imports, unused⟩ := Prod.mk.inj seen
  obtain ⟨defaults, same, scripted, styled⟩ := ofLayer_nil
  rw [accepted, Except.ok.injEq] at same
  subst same
  have named : packageTree.HasNames := by decide
  obtain ⟨sources, -, -, -, -, -, apart⟩ := imports_meet_unused_iff named ran
  exact ⟨settings, report, after, named, accepted, ran, imports, unused, apart scripted styled⟩

/-- A script at the root that imports a package whose name is that of the file beside it. -/
def bareTree : FileTree where
  here := []
  entries := [([("p" : Text)], .folder),
    ([("p" : Text), ("main.ts" : Text)], .file { bytes := "import 'a.ts'".toList.map fun c => c.toNat.toUInt8 }),
    ([("p" : Text), ("a.ts" : Text)], .file { bytes := [] })]

/-- A script pattern for the root. -/
def rootPattern : Layer := [("script_patterns", .texts ["*.ts"])]

set_option maxRecDepth 100000 in
theorem sampleRun_bare :
    sampleRun bareTree rootPattern (ended fun _ _ report _ => (report.imports, report.unused)) =
      some (some (["a.ts"].map Text.ofString, ["a.ts", "main.ts"].map Text.ofString)) := by
  simp only [sampleRun, run, ledgerOf, Discovery.scan, Discovery.select, Settings.ignoredSuffixes,
    Text.sortedSet, Text.mergeSort_eq_insertionSort]
  decide +kernel

/-- A path can be listed as imported and as unused in one report. -/
theorem imports_meet_unused : ∃ settings report after,
    bareTree.HasNames ∧ Settings.ofLayer rootPattern = .ok settings ∧
    (run bareTree sampleRoot settings).result = .ok (report, after) ∧
    ¬ report.imports.Disjoint report.unused := by
  obtain ⟨settings, -, report, after, accepted, -, ran, seen⟩ := sampleRun_ended sampleRun_bare
  obtain ⟨imports, unused⟩ := Prod.mk.inj seen
  refine ⟨settings, report, after, by decide, accepted, ran, fun apart => ?_⟩
  rw [imports, unused] at apart
  exact apart List.mem_cons_self List.mem_cons_self

end Analysis

end Deadwood
