import Deadwood.Proofs.Unused

/-!
# The stages of a run, one by one

A pass over sources resolves the references of all its sources as if they stood
in one list, so the sources matter only through the references they contribute,
and the one failure of a pass has the same cause wherever it is met.  The
result of a whole run, good or bad, is the chain of the results of its stages.
-/

namespace Deadwood

namespace Analysis

variable {tree after : FileTree} {path : Path.Parsed} {settings : Settings} {report : Report}
  {resolver : Resolver} {references others : List Reference}

/-! ## Passes over sources -/

/-- The references that a script contributes: none, if it cannot be parsed. -/
def scriptReferences (source : Source) : List Reference :=
  (Script.extract source.path source.text).toOption.getD []

/-- The references that a stylesheet contributes. -/
def styleReferences (source : Source) : List Reference := Stylesheet.extract source.path source.text

theorem extract_eq_error {path text : Text} {failure : Failure}
    (failed : Script.extract path text = .error failure) :
    ∃ language reason, failure = .unparsable path language reason := by
  simp only [Script.extract] at failed
  split at failed
  case h_1 =>
    cases failed
    exact ⟨_, _, rfl⟩
  case h_2 =>
    split at failed
    case isTrue =>
      cases failed
      exact ⟨_, _, rfl⟩
    case isFalse => cases failed

/-- Whether references can be resolved: without an alias that is a text, none may reach the rules. -/
def Resolver.accepts (resolver : Resolver) (references : List Reference) : Bool :=
  resolver.hasAlias || (references.filterMap (explanation resolver.project)).isEmpty

@[simp] theorem Resolver.accepts_append (resolver : Resolver) (references others : List Reference) :
    resolver.accepts (references ++ others) =
      (resolver.accepts references && resolver.accepts others) := by
  cases aliased : resolver.hasAlias with
  | true => simp [accepts, aliased]
  | false =>
    simp only [accepts, aliased, Bool.false_or, List.filterMap_append]
    cases references.filterMap (explanation resolver.project) <;> simp

theorem Resolver.accepts_perm (same : references.Perm others) :
    resolver.accepts references = resolver.accepts others := by
  simp only [accepts, (same.filterMap _).isEmpty_eq]

theorem resolveAll_result (resolver : Resolver) (references : List Reference) :
    (resolveAll resolver references).result =
      if resolver.accepts references then .ok (references.map resolver.project.resolve)
      else .error (.fault .wrongType) := by
  have opposite : (!resolver.hasAlias &&
      !(references.filterMap (explanation resolver.project)).isEmpty) = !resolver.accepts references := by
    rw [Resolver.accepts, Bool.not_or]
  rw [resolveAll, opposite]
  cases resolver.accepts references with
  | true => rfl
  | false => rfl

theorem resolveAll_append (resolver : Resolver) (references others : List Reference) :
    (resolveAll resolver (references ++ others)).result =
      (resolveAll resolver references).result.bind fun first =>
        (resolveAll resolver others).result.map (first ++ ·) := by
  simp only [resolveAll_result, Resolver.accepts_append, List.map_append]
  cases resolver.accepts references with
  | false => rfl
  | true =>
    cases resolver.accepts others with
    | false => rfl
    | true => rfl

/-- A pass over scripts resolves their references as one list. -/
theorem scanScripts_resolutions (resolver : Resolver) (sources : List Source) :
    (scanScripts resolver sources).result.map Findings.resolutions =
      (resolveAll resolver (sources.flatMap scriptReferences)).result := by
  induction sources with
  | nil =>
    rw [List.flatMap_nil, resolveAll_result]
    simp [scanScripts, Resolver.accepts, Except.map]
  | cons source rest ih =>
    rw [List.flatMap_cons, resolveAll_append, ← ih, scanScripts]
    cases parsed : Script.extract source.path source.text with
    | ok references =>
      have found : scriptReferences source = references := by
        simp [scriptReferences, parsed, Except.toOption]
      simp only [found, Noted.result_bind, noteCount, Noted.result_note, Noted.result_pure]
      cases (resolveAll resolver references).result with
      | error failure => rfl
      | ok resolutions => cases (scanScripts resolver rest).result <;> rfl
    | error failure =>
      have found : scriptReferences source = [] := by
        simp [scriptReferences, parsed, Except.toOption]
      obtain ⟨language, reason, rfl⟩ := extract_eq_error parsed
      simp only [found, Noted.result_bind, Noted.result_note, Noted.result_pure, resolveAll_result]
      cases (scanScripts resolver rest).result <;> simp [Resolver.accepts, Except.map, Except.bind]

/-- A pass over stylesheets resolves their references as one list. -/
theorem scanStylesheets_resolutions (resolver : Resolver) (sources : List Source) :
    (scanStylesheets resolver sources).result.map Findings.resolutions =
      (resolveAll resolver (sources.flatMap styleReferences)).result := by
  induction sources with
  | nil =>
    rw [List.flatMap_nil, resolveAll_result]
    simp [scanStylesheets, Resolver.accepts, Except.map]
  | cons source rest ih =>
    rw [List.flatMap_cons, resolveAll_append, ← ih, scanStylesheets]
    simp only [styleReferences, Noted.result_bind, noteCount, Noted.result_note, Noted.result_pure]
    cases (resolveAll resolver (Stylesheet.extract source.path source.text)).result with
    | error failure => rfl
    | ok resolutions => cases (scanStylesheets resolver rest).result <;> rfl

theorem accepts_of_resolveAll {resolutions : List Resolution}
    (ran : (resolveAll resolver references).result = .ok resolutions) :
    resolver.accepts references = true := by
  rw [resolveAll_result] at ran
  split at ran
  case isTrue accepted => exact accepted
  case isFalse => cases ran

theorem accepts_of_scanScripts {sources : List Source} {findings : Findings}
    (ran : (scanScripts resolver sources).result = .ok findings) :
    resolver.accepts (sources.flatMap scriptReferences) = true := by
  apply accepts_of_resolveAll
  rw [← scanScripts_resolutions, ran]
  rfl

theorem accepts_of_scanStylesheets {sources : List Source} {findings : Findings}
    (ran : (scanStylesheets resolver sources).result = .ok findings) :
    resolver.accepts (sources.flatMap styleReferences) = true := by
  apply accepts_of_resolveAll
  rw [← scanStylesheets_resolutions, ran]
  rfl

/-! ## The whole run -/

/-- What a run reports, from the results of its stages. -/
def reportOf (sources : Discovery) (scripts stylesheets : Findings) (ledger : Ledger)
    (unused : List Text) (unusedDeclared : Option (List Text)) (moved : List Text) : Report where
  imports := ledger.imports
  packages := ledger.packages
  unused
  unusedDeclared
  stats := {
    scanned := sources.scripts.length + sources.stylesheets.length
    skipped := (sources.skipped ++ scripts.failed ++ stylesheets.failed).mergeSort Text.le
    references := scripts.resolutions.length + stylesheets.resolutions.length
    unresolved := ledger.unresolved
    moved }

/-- A run is as good as its stages: the first that fails gives its failure to the run. -/
theorem run_result (tree : FileTree) (path : Path.Parsed) (settings : Settings) :
    (run tree path settings).result =
      if !tree.isFolder (tree.resolve path) then
        .error (rootFailure tree path)
      else (do
        let sources ← (Discovery.scan tree (tree.resolve path) settings).result
        let resolver := resolverOf (tree.resolve path) settings sources.files
        let scripts ← (scanScripts resolver sources.scripts).result
        let stylesheets ← (scanStylesheets resolver sources.stylesheets).result
        let ledger ← (ledgerOf settings sources.files
          (scripts.resolutions ++ stylesheets.resolutions)).mapError Failure.fault
        let unused ← ledger.unusedFiles
        let declared ← (unusedDependencies tree (tree.resolve path) settings ledger.packages).result
        let cleaned ← (if settings.deleteUnused.isTruthy then
            Cleanup.clean tree (tree.resolve path) unused settings.backupFolder
          else pure (tree, [])).result
        pure (reportOf sources scripts stylesheets ledger unused declared cleaned.2, cleaned.1)) := by
  simp only [run]
  split
  case isTrue => rfl
  case isFalse =>
    cases settings.deleteUnused.isTruthy with
    | true =>
      simp only [if_true, Noted.result_bind, Outcome.result_outcome, Noted.result_lift,
        Noted.liftFault]
      rfl
    | false =>
      simp only [Bool.false_eq_true, if_false, Noted.result_bind, Outcome.result_outcome,
        Noted.result_lift, Noted.liftFault]
      rfl

/-- The results of the stages behind a report. -/
theorem report_eq (ran : (run tree path settings).result = .ok (report, after)) :
    ∃ sources scripts stylesheets ledger unused declared moved,
      (Discovery.scan tree (tree.resolve path) settings).result = .ok sources ∧
      (scanScripts (resolverOf (tree.resolve path) settings sources.files) sources.scripts).result =
        .ok scripts ∧
      (scanStylesheets (resolverOf (tree.resolve path) settings sources.files)
        sources.stylesheets).result = .ok stylesheets ∧
      ledgerOf settings sources.files (scripts.resolutions ++ stylesheets.resolutions) = .ok ledger ∧
      ledger.unusedFiles = .ok unused ∧
      report = reportOf sources scripts stylesheets ledger unused declared moved := by
  rw [run_result] at ran
  split at ran
  case isTrue => cases ran
  case isFalse =>
    simp only [bind, Outcome.bind_eq_ok, Outcome.mapError_eq_ok] at ran
    obtain ⟨sources, scanned, scripts, scannedScripts, stylesheets, scannedStyles, ledger, entered,
      unused, reported, declared, -, cleaned, -, done⟩ := ran
    cases done
    exact ⟨sources, scripts, stylesheets, ledger, unused, declared, cleaned.2, scanned, scannedScripts,
      scannedStyles, entered, reported, rfl⟩

/-! ## Stages that end -/

theorem Resolver.accepts_of_subset {resolver : Resolver} {references others : List Reference}
    (accepted : resolver.accepts references = true)
    (subset : ∀ reference ∈ others, reference ∈ references) : resolver.accepts others = true := by
  cases aliased : resolver.hasAlias with
  | true => simp [accepts, aliased]
  | false =>
    simp only [accepts, aliased, Bool.false_or, List.isEmpty_iff, List.filterMap_eq_nil_iff]
      at accepted ⊢
    intro reference member
    exact accepted reference (subset reference member)

theorem exists_scanScripts {resolver : Resolver} {sources : List Source}
    (accepted : resolver.accepts (sources.flatMap scriptReferences) = true) :
    ∃ findings, (scanScripts resolver sources).result = .ok findings := by
  have resolved := scanScripts_resolutions resolver sources
  rw [resolveAll_result, if_pos accepted, Outcome.map_eq_ok] at resolved
  obtain ⟨findings, ran, -⟩ := resolved
  exact ⟨findings, ran⟩

theorem exists_scanStylesheets {resolver : Resolver} {sources : List Source}
    (accepted : resolver.accepts (sources.flatMap styleReferences) = true) :
    ∃ findings, (scanStylesheets resolver sources).result = .ok findings := by
  have resolved := scanStylesheets_resolutions resolver sources
  rw [resolveAll_result, if_pos accepted, Outcome.map_eq_ok] at resolved
  obtain ⟨findings, ran, -⟩ := resolved
  exact ⟨findings, ran⟩

theorem mapM_text? (texts : List Text) : (texts.map Value.text).mapM Value.text? = some texts := by
  induction texts with
  | nil => rfl
  | cons text rest ih => simp [ih, Value.text?]

/-- With patterns that are texts, a usable manifest is compared with any list of packages. -/
theorem unusedDependencies_of_loaded {declared names : List Text}
    (texts : settings.ignoreDependencies.items = .ok (names.map Value.text))
    (loaded : (Manifest.load tree root).result = .ok (some declared)) (used : List Text) :
    (unusedDependencies tree root settings used).result =
      .ok (some (Package.unusedDeclared declared used names)) := by
  have compared : (settings.ignoreDependencies.items >>= unusedDeclared declared used) =
      .ok (Package.unusedDeclared declared used names) := by
    simp only [texts, bind, Except.bind, unusedDeclared, mapM_text?]
    rfl
  simp only [unusedDependencies, Noted.result_bind, Outcome.result_outcome, Except.bind, loaded,
    Noted.liftFault, Noted.result_lift, compared]
  rfl

theorem exists_unusedDependencies {used names : List Text} {declared : Option (List Text)}
    (texts : settings.ignoreDependencies.items = .ok (names.map Value.text))
    (ran : (unusedDependencies tree root settings used).result = .ok declared) (others : List Text) :
    ∃ redeclared, (unusedDependencies tree root settings others).result = .ok redeclared := by
  cases loaded : (Manifest.load tree root).result with
  | ok found =>
    cases found with
    | none =>
      simp only [unusedDependencies, Noted.result_bind, Outcome.result_outcome, Except.bind, loaded]
      exact ⟨none, rfl⟩
    | some declared => exact ⟨_, unusedDependencies_of_loaded texts loaded others⟩
  | error failure =>
    simp only [unusedDependencies, Noted.result_bind, Outcome.result_outcome, Except.bind, loaded]
      at ran ⊢
    cases failure with
    | badManifest place reason => exact ⟨none, rfl⟩
    | _ => cases ran

theorem exists_ledgerOf {files : List Text} {resolutions : List Resolution} {ledger : Ledger}
    {lines : List Text} (texts : settings.ignoreFiles.items = .ok (lines.map Value.text))
    (entered : ledgerOf settings files resolutions = .ok ledger) (others : List Resolution) :
    ∃ suffixes reentered, ledgerOf settings files others = .ok reentered ∧
      reentered.withheld = { suffixes, lines := .ok lines } ∧ reentered.complete = true := by
  simp only [ledgerOf, bind, Outcome.bind_eq_ok, pure, Except.pure, Except.ok.injEq] at entered
  obtain ⟨suffixes, suffixed, _, lined, -⟩ := entered
  have read := ignoredLines_eq_ok.mpr texts
  refine ⟨suffixes, ((Ledger.start files { suffixes, lines := .ok lines }).addAll others).close, ?_, ?_,
    rfl⟩
  · simp only [ledgerOf, suffixed, read, bind, Except.bind]
    rfl
  · rw [Ledger.close, Ledger.withheld_addAll]
    rfl

end Analysis

/-! ## What a scan hands on -/

namespace Discovery

variable {tree other : FileTree} {root : Path.Parsed} {settings : Settings}

/-- The references that a file contributes, once it was read or passed over. -/
def yield (references : Source → List Reference) (path : Text) : Except Text Text → List Reference
  | .ok text => references ⟨path, text⟩
  | .error _ => []

/-- A pass over files takes the references of the first, if it was read, before those of the others. -/
theorem readAll_cons_references (tree : FileTree) (root : Path.Parsed) (limit : Except Fault Int)
    (path : Text) (rest : List Text) (references : Source → List Reference) :
    (readAll tree root limit (path :: rest)).result.map (·.1.flatMap references) =
      (((readSource tree root limit path).map (yield references path)).mapError Failure.fault).bind
        fun first => ((readAll tree root limit rest).result.map (·.1.flatMap references)).map
          (first ++ ·) := by
  simp only [readAll, Noted.result_bind, Noted.liftFault, Noted.result_lift]
  cases readSource tree root limit path with
  | error fault => rfl
  | ok outcome =>
    cases outcome with
    | error reason =>
      simp only [Except.mapError, Except.bind, Except.map, Noted.result_bind, yield]
      cases (readAll tree root limit rest).result <;> simp
    | ok text =>
      simp only [Except.mapError, Except.bind, Except.map, Noted.result_bind, yield]
      cases (readAll tree root limit rest).result <;> simp

/-- Files that contribute the same references do so in a pass over all of them. -/
theorem readAll_references_congr {limit : Except Fault Int} {paths : List Text}
    (references : Source → List Reference)
    (same : ∀ path ∈ paths, (readSource tree root limit path).map (yield references path) =
      (readSource other root limit path).map (yield references path)) :
    (readAll tree root limit paths).result.map (·.1.flatMap references) =
      (readAll other root limit paths).result.map (·.1.flatMap references) := by
  induction paths with
  | nil => rfl
  | cons path rest ih =>
    rw [readAll_cons_references, readAll_cons_references, same path List.mem_cons_self,
      ih fun other member => same other (List.mem_cons_of_mem path member)]

/-- What the stages after a scan see of it: the files, and the references in scripts and stylesheets. -/
def gist (sources : Discovery) : List Text × List Reference × List Reference :=
  (sources.files, sources.scripts.flatMap Analysis.scriptReferences,
    sources.stylesheets.flatMap Analysis.styleReferences)

theorem scan_gist (tree : FileTree) (root : Path.Parsed) (settings : Settings) :
    (scan tree root settings).result.map gist = (do
      let scriptPaths ← (select tree root settings.backupFolder settings.scriptPatterns).mapError Failure.fault
      let scripts ← (readAll tree root settings.maxBytes scriptPaths).result.map
        (·.1.flatMap Analysis.scriptReferences)
      let stylePaths ← (select tree root settings.backupFolder settings.stylePatterns).mapError Failure.fault
      let stylesheets ← (readAll tree root settings.maxBytes stylePaths).result.map
        (·.1.flatMap Analysis.styleReferences)
      pure (Text.sortedSet (scriptPaths ++ stylePaths), scripts, stylesheets)) := by
  simp only [scan, Noted.result_bind, Noted.liftFault, Noted.result_lift, Noted.result_note,
    Outcome.map_bind]
  simp only [bind, Outcome.bind_map]
  rfl

end Discovery

/-! ## What a run reports -/

namespace Analysis

variable {tree other : FileTree} {path root : Path.Parsed} {settings : Settings}

/-- What is compared of a run: the lists of its report, and the files it moved. -/
def digest (outcome : Report × FileTree) : List (Text × List Text) × List Text :=
  (outcome.1.sections, outcome.1.stats.moved)

/-- A run sees of its sources only what the scan hands on. -/
theorem run_digest (tree : FileTree) (path : Path.Parsed) (settings : Settings) :
    (run tree path settings).result.map digest =
      if !tree.isFolder (tree.resolve path) then
        .error (rootFailure tree path)
      else (do
        let gist ← (Discovery.scan tree (tree.resolve path) settings).result.map Discovery.gist
        let resolver := resolverOf (tree.resolve path) settings gist.1
        let scripts ← (resolveAll resolver gist.2.1).result
        let stylesheets ← (resolveAll resolver gist.2.2).result
        let ledger ← (ledgerOf settings gist.1 (scripts ++ stylesheets)).mapError Failure.fault
        let unused ← ledger.unusedFiles
        let declared ← (unusedDependencies tree (tree.resolve path) settings ledger.packages).result
        let moved ← (if settings.deleteUnused.isTruthy then
            Cleanup.clean tree (tree.resolve path) unused settings.backupFolder
          else pure (tree, [])).result.map Prod.snd
        let report : Report := {
          imports := ledger.imports
          packages := ledger.packages
          unused
          unusedDeclared := declared }
        pure (report.sections, moved)) := by
  rw [run_result]
  split
  · rfl
  · simp only [bind, ← scanScripts_resolutions, ← scanStylesheets_resolutions, Outcome.map_bind,
      Outcome.bind_map, Discovery.gist]
    rfl

theorem unusedDependencies_congr {used : List Text}
    (same : tree.stat (root.append (Path.Parsed.ofText Manifest.fileName)) =
      other.stat (root.append (Path.Parsed.ofText Manifest.fileName))) :
    unusedDependencies tree root settings used = unusedDependencies other root settings used := by
  simp only [unusedDependencies, Manifest.load, FileTree.content, FileTree.file, same]

end Analysis

end Deadwood
