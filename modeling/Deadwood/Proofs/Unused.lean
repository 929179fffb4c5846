import Deadwood.Analysis
import Deadwood.Proofs.Discovery
import Deadwood.Proofs.Resolution
import Deadwood.Proofs.Usage

/-!
# Which files are reported as unused

A run passes references through five stages, and each of them could lose one.
The module describes what the report has to say without any of the stages: a
reference is written somewhere in the project, a setting withholds a file.  A
file is reported exactly if it was found, is not withheld, and no reference
that is written anywhere names it.
-/

namespace Deadwood.Analysis

variable {tree after : FileTree} {path root : Path.Parsed} {settings : Settings} {report : Report}
  {resolver : Resolver} {file : Text}

/-! ## Written references and withheld files -/

/-- A reference stands in a script that can be read and parsed, or in a stylesheet that can be read. -/
inductive Written (tree : FileTree) (root : Path.Parsed) (settings : Settings) : Reference → Prop where
  | script {path text : Text} {references : List Reference} {reference : Reference}
      (selected : Discovery.Selected tree (Discovery.locationOf tree root) settings.backupFolder
        settings.scriptPatterns path)
      (reads : Discovery.Reads tree root settings.maxBytes path text)
      (parsed : Script.extract path text = .ok references)
      (member : reference ∈ references) : Written tree root settings reference
  | stylesheet {path text : Text} {reference : Reference}
      (selected : Discovery.Selected tree (Discovery.locationOf tree root) settings.backupFolder
        settings.stylePatterns path)
      (reads : Discovery.Reads tree root settings.maxBytes path text)
      (member : reference ∈ Stylesheet.extract path text) : Written tree root settings reference

/-- A setting keeps a file out of the report: an extension, or a list of ignore patterns. -/
inductive Withholds (settings : Settings) (file : Text) : Prop where
  | extension {values : List Value} {extension : Text}
      (items : settings.ignoreExtensions.items = .ok values)
      (listed : Value.text extension ∈ values)
      (ends : Codepoint.char '.' ::
        Text.lower (Text.trimStartBy (· = Codepoint.char '.') extension) <:+ Text.lower file)
  | patterns {lines : List Text}
      (items : settings.ignoreFiles.items = .ok (lines.map Value.text))
      (ignored : Ignore.isIgnored file lines = .ok true)

theorem mem_ignoredSuffixes {suffixes : List Text} (ran : settings.ignoredSuffixes = .ok suffixes) :
    ∃ values, settings.ignoreExtensions.items = .ok values ∧
      ∀ suffix, suffix ∈ suffixes ↔ ∃ extension, Value.text extension ∈ values ∧
        suffix = Codepoint.char '.' ::
          Text.lower (Text.trimStartBy (· = Codepoint.char '.') extension) := by
  simp only [Settings.ignoredSuffixes, bind, Outcome.bind_eq_ok, pure, Except.pure,
    Except.ok.injEq] at ran
  obtain ⟨values, items, read, mapped, rfl⟩ := ran
  refine ⟨values, items, fun suffix => ?_⟩
  rw [Text.mem_sortedSet, Outcome.mem_of_mapM mapped]
  constructor
  · rintro ⟨value, listed, outcome⟩
    cases value with
    | text extension =>
      cases outcome
      exact ⟨extension, listed, rfl⟩
    | _ => cases outcome
  · rintro ⟨extension, listed, rfl⟩
    exact ⟨.text extension, listed, rfl⟩

theorem mapM_text_eq_ok {values : List Value} {lines : List Text} :
    (values.mapM fun value => match value with
      | .text line => (pure line : Except Fault Text)
      | _ => throw Fault.unknownOperation) = .ok lines ↔ values = lines.map Value.text := by
  induction values generalizing lines with
  | nil => cases lines <;> simp [pure, Except.pure]
  | cons value rest ih =>
    rw [Outcome.mapM_cons_eq_ok]
    constructor
    · rintro ⟨line, more, read, later, rfl⟩
      rw [ih] at later
      cases value with
      | text other =>
        cases read
        rw [later, List.map_cons]
      | _ => cases read
    · intro equal
      cases lines with
      | nil => cases equal
      | cons line more =>
        cases equal
        exact ⟨line, more, rfl, ih.mpr rfl, rfl⟩

/-- Lines that can be read are the texts of their values. -/
theorem ignoredLines_eq_ok {lines : List Text} : settings.ignoredLines = .ok (.ok lines) ↔
    settings.ignoreFiles.items = .ok (lines.map Value.text) := by
  simp only [Settings.ignoredLines, bind, Outcome.bind_eq_ok, pure, Except.pure, Except.ok.injEq]
  constructor
  · rintro ⟨values, items, mapped⟩
    rw [items, mapM_text_eq_ok.mp mapped]
  · intro items
    exact ⟨_, items, mapM_text_eq_ok.mpr rfl⟩

theorem withholds_iff {suffixes : List Text} {lines : Except Fault (List Text)}
    (suffixed : settings.ignoredSuffixes = .ok suffixes) (lined : settings.ignoredLines = .ok lines) :
    Withholds settings file ↔ { suffixes, lines : Withheld }.holds file = .ok true := by
  obtain ⟨values, items, members⟩ := mem_ignoredSuffixes suffixed
  have ends : suffixes.any (Text.endsWith (Text.lower file)) = true ↔
      ∃ extension, Value.text extension ∈ values ∧ Codepoint.char '.' ::
        Text.lower (Text.trimStartBy (· = Codepoint.char '.') extension) <:+ Text.lower file := by
    simp only [List.any_eq_true, Text.endsWith_iff, members]
    constructor
    · rintro ⟨suffix, ⟨extension, listed, rfl⟩, ends⟩
      exact ⟨extension, listed, ends⟩
    · rintro ⟨extension, listed, ends⟩
      exact ⟨_, ⟨extension, listed, rfl⟩, ends⟩
  simp only [Withheld.holds]
  split
  case isTrue suffix =>
    obtain ⟨extension, listed, closes⟩ := ends.mp suffix
    exact iff_of_true (.extension items listed closes) rfl
  case isFalse unsuffixed =>
    simp only [bind, Outcome.bind_eq_ok]
    constructor
    · intro withholds
      cases withholds with
      | extension items' listed closes =>
        rw [items, Except.ok.injEq] at items'
        subst items'
        exact absurd (ends.mpr ⟨_, listed, closes⟩) unsuffixed
      | patterns items' ignored =>
        have read := ignoredLines_eq_ok.mpr items'
        rw [lined, Except.ok.injEq] at read
        exact ⟨_, read, ignored⟩
    · rintro ⟨texts, rfl, ignored⟩
      exact .patterns (ignoredLines_eq_ok.mp lined) ignored

/-! ## The stages of a run -/

theorem resolveAll_eq_ok {references : List Reference} {resolutions : List Resolution}
    (ran : (resolveAll resolver references).result = .ok resolutions) :
    resolutions = references.map resolver.project.resolve := by
  simp only [resolveAll] at ran
  split at ran
  case isTrue => cases ran
  case isFalse =>
    cases ran
    rfl

theorem mem_scanScripts {sources : List Source} {findings : Findings}
    (ran : (scanScripts resolver sources).result = .ok findings) (resolution : Resolution) :
    resolution ∈ findings.resolutions ↔ ∃ source ∈ sources, ∃ references,
      Script.extract source.path source.text = .ok references ∧
        ∃ reference ∈ references, resolver.project.resolve reference = resolution := by
  induction sources generalizing findings with
  | nil =>
    cases ran
    simp
  | cons source rest ih =>
    simp only [scanScripts] at ran
    split at ran
    case h_1 references parsed =>
      simp only [Noted.result_bind, Outcome.bind_eq_ok] at ran
      obtain ⟨-, -, resolutions, resolved, others, later, done⟩ := ran
      cases done
      simp [resolveAll_eq_ok resolved, ih later, parsed]
    case h_2 unparsed =>
      simp only [Noted.result_bind, Outcome.bind_eq_ok] at ran
      obtain ⟨-, -, others, later, done⟩ := ran
      cases done
      simp [ih later, unparsed]
    case h_3 => cases ran

theorem mem_scanStylesheets {sources : List Source} {findings : Findings}
    (ran : (scanStylesheets resolver sources).result = .ok findings) (resolution : Resolution) :
    resolution ∈ findings.resolutions ↔ ∃ source ∈ sources,
      ∃ reference ∈ Stylesheet.extract source.path source.text,
        resolver.project.resolve reference = resolution := by
  induction sources generalizing findings with
  | nil =>
    cases ran
    simp
  | cons source rest ih =>
    simp only [scanStylesheets, Noted.result_bind, Outcome.bind_eq_ok] at ran
    obtain ⟨-, -, resolutions, resolved, others, later, done⟩ := ran
    cases done
    simp [resolveAll_eq_ok resolved, ih later]

/-- The stages that a run has passed when it ends with a report. -/
theorem run_eq_ok (ran : (run tree path settings).result = .ok (report, after)) :
    ∃ sources scripts stylesheets ledger,
      (Discovery.scan tree (tree.resolve path) settings).result = .ok sources ∧
      (scanScripts (resolverOf (tree.resolve path) settings sources.files) sources.scripts).result =
        .ok scripts ∧
      (scanStylesheets (resolverOf (tree.resolve path) settings sources.files)
        sources.stylesheets).result = .ok stylesheets ∧
      ledgerOf settings sources.files (scripts.resolutions ++ stylesheets.resolutions) = .ok ledger ∧
      ledger.unusedFiles = .ok report.unused := by
  simp only [run] at ran
  split at ran
  case isTrue => cases ran
  case isFalse =>
    simp only [Noted.result_bind, Outcome.bind_eq_ok, Outcome.result_outcome, Noted.result_lift,
      Outcome.liftFault_eq_ok, Except.ok.injEq] at ran
    obtain ⟨sources, scanned, _, rfl, _, rfl, scripts, scannedScripts, stylesheets, scannedStyles,
      ledger, entered, unused, reported, declared, -, ran⟩ := ran
    refine ⟨sources, scripts, stylesheets, ledger, scanned, scannedScripts, scannedStyles, entered, ?_⟩
    -- Moving files comes after the report is made, so it does not matter whether that is done.
    split at ran
    all_goals
      simp only [Noted.result_bind, Outcome.bind_eq_ok] at ran
      obtain ⟨_, -, _, -, done⟩ := ran
      cases done
      exact reported

/-- Both passes together resolve exactly the references that are written in the project. -/
theorem mem_resolutions {sources : Discovery} {scripts stylesheets : Findings}
    (finds : Discovery.Finds tree root settings sources)
    (scannedScripts : (scanScripts resolver sources.scripts).result = .ok scripts)
    (scannedStyles : (scanStylesheets resolver sources.stylesheets).result = .ok stylesheets)
    (resolution : Resolution) :
    resolution ∈ scripts.resolutions ++ stylesheets.resolutions ↔
      ∃ reference, Written tree root settings reference ∧
        resolver.project.resolve reference = resolution := by
  rw [List.mem_append, mem_scanScripts scannedScripts, mem_scanStylesheets scannedStyles]
  constructor
  · rintro (⟨source, found, references, parsed, reference, member, equal⟩ |
      ⟨source, found, reference, member, equal⟩)
    · obtain ⟨selected, reads⟩ := (finds.scripts source).mp found
      exact ⟨reference, .script selected reads parsed member, equal⟩
    · obtain ⟨selected, reads⟩ := (finds.stylesheets source).mp found
      exact ⟨reference, .stylesheet selected reads member, equal⟩
  · rintro ⟨reference, written, equal⟩
    cases written with
    | @script path text references reference selected reads parsed member =>
      have found := (finds.scripts ⟨path, text⟩).mpr ⟨selected, reads⟩
      exact .inl ⟨⟨path, text⟩, found, references, parsed, reference, member, equal⟩
    | @stylesheet path text reference selected reads member =>
      have found := (finds.stylesheets ⟨path, text⟩).mpr ⟨selected, reads⟩
      exact .inr ⟨⟨path, text⟩, found, reference, member, equal⟩

/-- The ledger of a run reports the found files that are neither withheld nor among its entries. -/
theorem mem_unused_of_entered {files unused : List Text} {resolutions : List Resolution}
    {ledger : Ledger} (entered : ledgerOf settings files resolutions = .ok ledger)
    (reported : ledger.unusedFiles = .ok unused) :
    file ∈ unused ↔
      file ∈ files ∧ ¬ Withholds settings file ∧ .projectFile file ∉ resolutions := by
  simp only [ledgerOf, bind, Outcome.bind_eq_ok, pure, Except.pure, Except.ok.injEq] at entered
  obtain ⟨suffixes, suffixed, lines, lined, rfl⟩ := entered
  rw [Ledger.mem_unusedFiles reported, withholds_iff suffixed lined]
  simp only [Ledger.close, Ledger.files_addAll, Ledger.mem_files_start, Ledger.withheld_addAll,
    Ledger.mem_referenced_addAll]
  simp only [Ledger.start, List.not_mem_nil, false_or, and_congr_right_iff]
  intro found
  exact and_comm

/-! ## The report -/

/-- A run that ends reports a file exactly if it was found, is not withheld, and no reference written
in the project, its own ones included, is resolved to it. -/
theorem mem_unused_iff (ran : (run tree path settings).result = .ok (report, after)) :
    ∃ sources, (Discovery.scan tree (tree.resolve path) settings).result = .ok sources ∧
      ∀ file, file ∈ report.unused ↔
        file ∈ sources.files ∧ ¬ Withholds settings file ∧
          ∀ reference, Written tree (tree.resolve path) settings reference →
            (resolverOf (tree.resolve path) settings sources.files).project.resolve reference ≠
              .projectFile file := by
  obtain ⟨sources, scripts, stylesheets, ledger, scanned, scannedScripts, scannedStyles, entered,
    reported⟩ := run_eq_ok ran
  refine ⟨sources, scanned, fun file => ?_⟩
  have finds := Discovery.scan_finds scanned
  rw [mem_unused_of_entered entered reported, mem_resolutions finds scannedScripts scannedStyles]
  simp only [not_exists, not_and, ne_eq]

/-- A project in the folder `p`: its `src/main.ts` and, beside that, empty files. -/
def sampleTree (script : String) (others : List Text) : FileTree where
  here := []
  entries := [([("p" : Text)], .folder), ([("p" : Text), ("src" : Text)], .folder),
    ([("p" : Text), ("src" : Text), ("main.ts" : Text)],
      .file { bytes := script.toList.map fun c => c.toNat.toUInt8 })] ++
    others.map fun name => ([("p" : Text), ("src" : Text), name], .file { bytes := [] })

/-- The folder `p`. -/
def sampleRoot : Path.Parsed := ⟨1, [("p" : Text)]⟩

/-- What is seen of a run over the folder `p` with a layer over the defaults: of its settings, its scan and its end. -/
def sampleRun {α : Type} (tree : FileTree) (layer : Layer)
    (view : Settings → Except Failure Discovery → Except Failure (Report × FileTree) → α) : Option α := do
  let settings ← (Settings.ofLayer layer).toOption
  pure (view settings (Discovery.scan tree (tree.resolve sampleRoot) settings).result
    (run tree sampleRoot settings).result)

theorem sampleRun_eq_some {α : Type} {layer : Layer} {seen : α}
    {view : Settings → Except Failure Discovery → Except Failure (Report × FileTree) → α}
    (found : sampleRun tree layer view = some seen) : ∃ settings, Settings.ofLayer layer = .ok settings ∧
      view settings (Discovery.scan tree (tree.resolve sampleRoot) settings).result
        (run tree sampleRoot settings).result = seen := by
  simpa only [sampleRun, bind, Option.bind_eq_some_iff, Outcome.toOption_eq_some, pure, Option.some.injEq] using found

/-- What is seen of a scan and a run that both end. -/
def ended {α : Type} (view : Settings → Discovery → Report → FileTree → α) (settings : Settings) :
    Except Failure Discovery → Except Failure (Report × FileTree) → Option α
  | .ok sources, .ok (report, after) => some (view settings sources report after)
  | _, _ => none

theorem sampleRun_ended {α : Type} {layer : Layer} {seen : α} {view : Settings → Discovery → Report → FileTree → α}
    (found : sampleRun tree layer (ended view) = some (some seen)) : ∃ settings sources report after,
      Settings.ofLayer layer = .ok settings ∧
      (Discovery.scan tree (tree.resolve sampleRoot) settings).result = .ok sources ∧
      (run tree sampleRoot settings).result = .ok (report, after) ∧ view settings sources report after = seen := by
  obtain ⟨settings, accepted, viewed⟩ := sampleRun_eq_some found
  unfold ended at viewed
  split at viewed
  case h_1 sources report after scanned ran =>
    cases viewed
    exact ⟨settings, sources, report, after, accepted, scanned, ran, rfl⟩
  case h_2 => cases viewed

/-- A script that imports one of the two modules beside it. -/
def orphanTree : FileTree := sampleTree "import './used'" ["used.ts", "orphan.ts"]

set_option maxRecDepth 100000 in
theorem sampleRun_orphan : sampleRun orphanTree [] (ended fun _ _ report _ => report.unused) =
    some (some (["src/main.ts", "src/orphan.ts"].map Text.ofString)) := by
  simp only [sampleRun, run, ledgerOf, Discovery.scan, Discovery.select, Settings.ignoredSuffixes,
    Text.sortedSet, Text.mergeSort_eq_insertionSort]
  decide +kernel

/-- The module that nothing imports is reported, and so no written reference names it. -/
theorem mem_unused_iff_orphan : ∃ settings report after,
    Settings.ofLayer [] = .ok settings ∧
    (run orphanTree sampleRoot settings).result = .ok (report, after) ∧
    report.unused = ["src/main.ts", "src/orphan.ts"].map Text.ofString ∧
    ∃ sources, (Discovery.scan orphanTree (orphanTree.resolve sampleRoot) settings).result =
        .ok sources ∧
      ∀ reference, Written orphanTree (orphanTree.resolve sampleRoot) settings reference →
        (resolverOf (orphanTree.resolve sampleRoot) settings sources.files).project.resolve
          reference ≠ .projectFile "src/orphan.ts" := by
  obtain ⟨settings, -, report, after, accepted, -, ran, unused⟩ := sampleRun_ended sampleRun_orphan
  obtain ⟨sources, scanned, members⟩ := mem_unused_iff ran
  have reported : Text.ofString "src/orphan.ts" ∈ report.unused := by simp [unused]
  exact ⟨settings, report, after, accepted, ran, unused, sources, scanned,
    ((members _).mp reported).2.2⟩

end Deadwood.Analysis
