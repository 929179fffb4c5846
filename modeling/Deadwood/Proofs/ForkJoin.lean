import Mathlib.Data.List.Perm.Basic
import Mathlib.Logic.Relation
import Deadwood.Proofs.LedgerHistory
import Deadwood.Proofs.Stages

/-!
# The order of a scan does not matter

Scripts and stylesheets can be scanned side by side.  A fork holds both scans on
their way, and a step takes any source that is left on either side and resolves
its references in any order.  What has been resolved, together with what is
still owed for the sources left, is the same multiset all along.  A ledger
depends on its entries as a multiset only, so however a fork goes and however
its resolutions are entered, the ledger answers as after the run that takes
everything in order.
-/

namespace Deadwood

namespace Ledger

variable {ledger other : Ledger} {texts : List Text} {text : Text}

/-! ## Ledgers that answer alike -/

/-- Two ledgers answer alike: their sets hold the same texts, they report the same files, or fail the
same way, and each reason was given as often. -/
structure Agrees (ledger other : Ledger) : Prop where
  referenced : ledger.referenced.Perm other.referenced
  packages : ledger.packages.Perm other.packages
  importedFiles : ledger.importedFiles.Perm other.importedFiles
  imports : ledger.imports.Perm other.imports
  unusedFiles : ledger.unusedFiles = other.unusedFiles
  given : ∀ reason, ledger.given reason = other.given reason

theorem nodup_insert (nodup : texts.Nodup) : (insert texts text).Nodup := by
  rw [insert]
  split
  case isTrue => exact nodup
  case isFalse absent =>
    refine nodup.append (List.nodup_singleton text) ?_
    simpa using absent

theorem nodup_foldl_insert (nodup : texts.Nodup) (others : List Text) :
    (others.foldl insert texts).Nodup := by
  induction others generalizing texts with
  | nil => exact nodup
  | cons first rest ih => exact ih (nodup_insert nodup)

theorem nodup_addAll (ledger : Ledger) (referenced : ledger.referenced.Nodup)
    (packages : ledger.packages.Nodup) (resolutions : List Resolution) :
    (ledger.addAll resolutions).referenced.Nodup ∧ (ledger.addAll resolutions).packages.Nodup := by
  induction resolutions generalizing ledger with
  | nil => exact ⟨referenced, packages⟩
  | cons first rest ih =>
    cases first with
    | projectFile path => exact ih _ (nodup_insert referenced) packages
    | package name => exact ih _ referenced (nodup_insert packages)
    | unresolved text reason => exact ih _ referenced packages

/-- The unused files depend on the set of the referenced ones only. -/
theorem unusedFiles_congr (files : ledger.files = other.files)
    (withheld : ledger.withheld = other.withheld) (complete : ledger.complete = other.complete)
    (referenced : ∀ path, path ∈ ledger.referenced ↔ path ∈ other.referenced) :
    ledger.unusedFiles = other.unusedFiles := by
  have contained : ∀ path, ledger.referenced.contains path = other.referenced.contains path := by
    intro path
    rw [Bool.eq_iff_iff, List.contains_iff_mem, List.contains_iff_mem]
    exact referenced path
  simp only [unusedFiles, files, withheld, complete, contained]

/-- Entries in another order, from the empty ledger on, lead to a ledger that answers alike. -/
theorem agrees_of_perm (files : List Text) (withheld : Withheld) {first second : List Resolution}
    (same : first.Perm second) :
    ((start files withheld).addAll first).close.Agrees ((start files withheld).addAll second).close := by
  have nodup := nodup_addAll (start files withheld) List.nodup_nil List.nodup_nil
  have referenced : ((start files withheld).addAll first).referenced.Perm
      ((start files withheld).addAll second).referenced := by
    rw [List.perm_ext_iff_of_nodup (nodup first).1 (nodup second).1]
    intro path
    rw [mem_referenced_addAll, mem_referenced_addAll, same.mem_iff]
  have packages : ((start files withheld).addAll first).packages.Perm
      ((start files withheld).addAll second).packages := by
    rw [List.perm_ext_iff_of_nodup (nodup first).2 (nodup second).2]
    intro name
    rw [mem_packages_addAll, mem_packages_addAll, same.mem_iff]
  refine ⟨referenced, packages, ?_, ?_, ?_, ?_⟩
  · simp only [importedFiles, close, files_addAll]
    exact referenced.filter _
  · simp only [imports, close]
    rw [List.perm_ext_iff_of_nodup (nodup_foldl_insert (nodup first).1 _)
      (nodup_foldl_insert (nodup second).1 _)]
    intro name
    rw [mem_foldl_insert, mem_foldl_insert]
    exact or_congr referenced.mem_iff packages.mem_iff
  · refine unusedFiles_congr ?_ ?_ rfl fun path => referenced.mem_iff
    · simp [close]
    · simp [close]
  · intro reason
    exact (given_addAll _ first).trans ((given_addAll _ second).trans (by rw [same.countP_eq])).symm

end Ledger

namespace Analysis

variable {resolver : Resolver} {references : Source → List Reference} {sources : Discovery}

/-! ## Scans side by side -/

/-- A scan on its way: the sources that are left, and what those taken were resolved to. -/
structure SubScan where
  left : List Source
  resolved : List Resolution := []

namespace SubScan

/-- A scan takes any source that is left, and resolves its references in any order. -/
inductive Step (resolver : Resolver) (references : Source → List Reference) :
    SubScan → SubScan → Prop where
  | take {before after : List Source} {source : Source} {emitted : List Reference}
      {resolved resolutions : List Resolution} (order : emitted.Perm (references source))
      (ran : (resolveAll resolver emitted).result = .ok resolutions) :
      Step resolver references ⟨before ++ source :: after, resolved⟩
        ⟨before ++ after, resolved ++ resolutions⟩

/-- What is resolved once all sources are taken: what is resolved already, and what is owed. -/
def total (resolver : Resolver) (references : Source → List Reference) (scan : SubScan) :
    List Resolution :=
  scan.resolved ++ (scan.left.flatMap references).map resolver.project.resolve

/-- What is kept from one scan to a later one: the total up to order.  References that could not be
resolved are still left. -/
structure Keeps (resolver : Resolver) (references : Source → List Reference) (scan later : SubScan) :
    Prop where
  total : (later.total resolver references).Perm (scan.total resolver references)
  accepted : resolver.accepts (later.left.flatMap references) = true →
    resolver.accepts (scan.left.flatMap references) = true

theorem Keeps.refl (scan : SubScan) : Keeps resolver references scan scan := ⟨.refl _, id⟩

theorem Keeps.trans {scan next later : SubScan} (first : Keeps resolver references scan next)
    (second : Keeps resolver references next later) : Keeps resolver references scan later :=
  ⟨second.total.trans first.total, first.accepted ∘ second.accepted⟩

theorem Step.keeps {scan next : SubScan} (step : Step resolver references scan next) :
    Keeps resolver references scan next := by
  cases step with
  | @take before after source emitted resolved resolutions order ran =>
    rw [resolveAll_result] at ran
    split at ran
    case isFalse => cases ran
    case isTrue accepted =>
      cases ran
      rw [resolver.accepts_perm order] at accepted
      constructor
      · -- The resolutions of the source move from what is owed to what is resolved.
        simp only [total, List.flatMap_append, List.flatMap_cons, List.map_append,
          List.append_assoc]
        apply List.Perm.append_left resolved
        exact (List.perm_append_comm_assoc _ _ _).trans
          (((order.map _).append_right _).append_left _)
      · simp only [List.flatMap_append, List.flatMap_cons, Resolver.accepts_append,
          Bool.and_eq_true]
        intro rest
        exact ⟨rest.1, accepted, rest.2⟩

/-- Where all references are accepted, a scan can take its sources one after the other. -/
theorem exists_run {left : List Source} (accepted : resolver.accepts (left.flatMap references) = true)
    (resolved : List Resolution) :
    ∃ all, Relation.ReflTransGen (Step resolver references) ⟨left, resolved⟩ ⟨[], all⟩ := by
  induction left generalizing resolved with
  | nil => exact ⟨resolved, .refl⟩
  | cons source rest ih =>
    rw [List.flatMap_cons, Resolver.accepts_append, Bool.and_eq_true] at accepted
    have ran : (resolveAll resolver (references source)).result =
        .ok ((references source).map resolver.project.resolve) := by
      rw [resolveAll_result, if_pos accepted.1]
    obtain ⟨all, later⟩ := ih accepted.2 (resolved ++ (references source).map resolver.project.resolve)
    refine ⟨all, .head ?_ later⟩
    exact @Step.take resolver references [] rest source _ resolved _ (.refl _) ran

end SubScan

/-- Both scans on their way. -/
structure Fork where
  scripts : SubScan
  stylesheets : SubScan

namespace Fork

/-- Both scans before any source is taken. -/
def start (sources : Discovery) : Fork where
  scripts := { left := sources.scripts }
  stylesheets := { left := sources.stylesheets }

/-- One of the scans makes a step, whichever it is. -/
inductive Step (resolver : Resolver) : Fork → Fork → Prop where
  | script {fork : Fork} {next : SubScan}
      (step : fork.scripts.Step resolver scriptReferences next) :
      Step resolver fork { fork with scripts := next }
  | stylesheet {fork : Fork} {next : SubScan}
      (step : fork.stylesheets.Step resolver styleReferences next) :
      Step resolver fork { fork with stylesheets := next }

/-- Steps lead from one fork to another, in whatever order the scans make them. -/
abbrev Run (resolver : Resolver) : Fork → Fork → Prop := Relation.ReflTransGen (Step resolver)

/-- Both scans have taken all their sources. -/
def Joined (fork : Fork) : Prop := fork.scripts.left = [] ∧ fork.stylesheets.left = []

theorem Run.keeps {fork final : Fork} (ran : Run resolver fork final) :
    fork.scripts.Keeps resolver scriptReferences final.scripts ∧
      fork.stylesheets.Keeps resolver styleReferences final.stylesheets := by
  induction ran with
  | refl => exact ⟨.refl _, .refl _⟩
  | tail _ step ih =>
    cases step with
    | script step => exact ⟨ih.1.trans step.keeps, ih.2⟩
    | stylesheet step => exact ⟨ih.1, ih.2.trans step.keeps⟩

/-- Where all references are accepted, one scan after the other can take its sources. -/
theorem exists_joined (scripts : resolver.accepts (sources.scripts.flatMap scriptReferences) = true)
    (stylesheets : resolver.accepts (sources.stylesheets.flatMap styleReferences) = true) :
    ∃ final, Run resolver (start sources) final ∧ final.Joined := by
  obtain ⟨resolvedScripts, scriptSteps⟩ := SubScan.exists_run scripts []
  obtain ⟨resolvedStyles, styleSteps⟩ := SubScan.exists_run stylesheets []
  have first : Run resolver (start sources) ⟨⟨[], resolvedScripts⟩, { left := sources.stylesheets }⟩ :=
    Relation.ReflTransGen.lift (Fork.mk · { left := sources.stylesheets })
      (fun _ _ step => Step.script step) _ _ scriptSteps
  have second : Run resolver ⟨⟨[], resolvedScripts⟩, { left := sources.stylesheets }⟩
      ⟨⟨[], resolvedScripts⟩, ⟨[], resolvedStyles⟩⟩ :=
    Relation.ReflTransGen.lift (Fork.mk ⟨[], resolvedScripts⟩)
      (fun _ _ step => Step.stylesheet step) _ _ styleSteps
  exact ⟨_, first.trans second, rfl, rfl⟩

/-- Once both scans have taken everything, each has resolved what the pass over its sources
resolves, up to order. -/
theorem Run.resolved_perm {final : Fork} (ran : Run resolver (start sources) final)
    (joined : final.Joined) :
    ∃ scripts stylesheets, (scanScripts resolver sources.scripts).result = .ok scripts ∧
      (scanStylesheets resolver sources.stylesheets).result = .ok stylesheets ∧
      final.scripts.resolved.Perm scripts.resolutions ∧
      final.stylesheets.resolved.Perm stylesheets.resolutions := by
  obtain ⟨scriptsKept, stylesKept⟩ := ran.keeps
  have scriptsAccepted := scriptsKept.accepted (by simp [joined.1, Resolver.accepts])
  have stylesAccepted := stylesKept.accepted (by simp [joined.2, Resolver.accepts])
  obtain ⟨scripts, scannedScripts, scriptsResolved⟩ := Outcome.map_eq_ok.mp
    ((scanScripts_resolutions resolver sources.scripts).trans
      ((resolveAll_result resolver _).trans (if_pos scriptsAccepted)))
  obtain ⟨stylesheets, scannedStyles, stylesResolved⟩ := Outcome.map_eq_ok.mp
    ((scanStylesheets_resolutions resolver sources.stylesheets).trans
      ((resolveAll_result resolver _).trans (if_pos stylesAccepted)))
  refine ⟨scripts, stylesheets, scannedScripts, scannedStyles, ?_, ?_⟩
  · rw [scriptsResolved]
    simpa [SubScan.total, joined.1, start] using scriptsKept.total
  · rw [stylesResolved]
    simpa [SubScan.total, joined.2, start] using stylesKept.total

end Fork

/-- Both scans can take all their sources in some order exactly if the passes that take them one after
the other succeed.  Whichever order that is, within a source, within a scan and between the scans, and
however the resolutions are entered in a ledger, the closed ledger answers as that of the passes. -/
theorem fork_join_agrees (resolver : Resolver) (sources : Discovery) :
    ((∃ final, Fork.Run resolver (Fork.start sources) final ∧ final.Joined) ↔
      ∃ scripts stylesheets, (scanScripts resolver sources.scripts).result = .ok scripts ∧
        (scanStylesheets resolver sources.stylesheets).result = .ok stylesheets) ∧
    ∀ scripts stylesheets, (scanScripts resolver sources.scripts).result = .ok scripts →
      (scanStylesheets resolver sources.stylesheets).result = .ok stylesheets →
      ∀ final, Fork.Run resolver (Fork.start sources) final → final.Joined →
      ∀ operations : List Ledger.Operation, (operations.flatMap Ledger.Operation.entries).Perm
        (final.scripts.resolved ++ final.stylesheets.resolved) →
      ∀ files withheld, ((Ledger.start files withheld).after operations).close.Agrees
        ((Ledger.start files withheld).addAll
          (scripts.resolutions ++ stylesheets.resolutions)).close := by
  refine ⟨⟨?_, ?_⟩, ?_⟩
  · rintro ⟨final, ran, joined⟩
    obtain ⟨scripts, stylesheets, scannedScripts, scannedStyles, -⟩ := ran.resolved_perm joined
    exact ⟨scripts, stylesheets, scannedScripts, scannedStyles⟩
  · rintro ⟨scripts, stylesheets, scannedScripts, scannedStyles⟩
    exact Fork.exists_joined (accepts_of_scanScripts scannedScripts)
      (accepts_of_scanStylesheets scannedStyles)
  · intro scripts stylesheets scannedScripts scannedStyles final ran joined operations fed files withheld
    obtain ⟨scripts', stylesheets', rescannedScripts, rescannedStyles, scriptsPerm, stylesPerm⟩ :=
      ran.resolved_perm joined
    rw [scannedScripts, Except.ok.injEq] at rescannedScripts
    rw [scannedStyles, Except.ok.injEq] at rescannedStyles
    subst rescannedScripts rescannedStyles
    rw [Ledger.close_after]
    exact Ledger.agrees_of_perm files withheld (fed.trans (scriptsPerm.append stylesPerm))

/-- A script with two imports, and a stylesheet with one. -/
def twoSources : Discovery where
  scripts := [⟨"src/a.ts", "import './b'; import 'react'"⟩]
  stylesheets := [⟨"src/s.css", "@import 'x.css'"⟩]
  files := ["src/a.ts", "src/b.ts", "src/s.css"]
  skipped := []

/-- What the two sources are resolved in. -/
def twoResolver : Resolver where
  project := { root := "/p", files := twoSources.files }
  hasAlias := true

set_option maxRecDepth 100000 in
theorem scriptReferences_two : scriptReferences ⟨"src/a.ts", "import './b'; import 'react'"⟩ =
    [⟨"src/a.ts", "./b", .staticImport⟩, ⟨"src/a.ts", "react", .staticImport⟩] := by
  decide +kernel

theorem styleReferences_two : styleReferences ⟨"src/s.css", "@import 'x.css'"⟩ =
    [⟨"src/s.css", "x.css", .styleImport⟩] := by
  decide

/-- The stylesheet comes first, the script emits its imports from last to first, and they are entered
in a third order. -/
theorem fork_join_agrees_reversed :
    ∃ final scripts stylesheets, Fork.Run twoResolver (Fork.start twoSources) final ∧ final.Joined ∧
      (scanScripts twoResolver twoSources.scripts).result = .ok scripts ∧
      (scanStylesheets twoResolver twoSources.stylesheets).result = .ok stylesheets ∧
      final.scripts.resolved = [.package "react", .projectFile "src/b.ts"] ∧
      ∀ files withheld, ((Ledger.start files withheld).after
          [.add (.projectFile "src/x.css"), .addAll [.projectFile "src/b.ts", .package "react"]]).close.Agrees
        ((Ledger.start files withheld).addAll
          (scripts.resolutions ++ stylesheets.resolutions)).close := by
  have style : Fork.Step twoResolver (Fork.start twoSources)
      ⟨{ left := twoSources.scripts }, ⟨[], [.projectFile "src/x.css"]⟩⟩ := by
    refine .stylesheet (@SubScan.Step.take _ _ [] [] _ _ [] _ (.refl _) ?_)
    rw [styleReferences_two, resolveAll_result]
    decide
  have script : Fork.Step twoResolver
      ⟨{ left := twoSources.scripts }, ⟨[], [.projectFile "src/x.css"]⟩⟩
      ⟨⟨[], [.package "react", .projectFile "src/b.ts"]⟩, ⟨[], [.projectFile "src/x.css"]⟩⟩ := by
    refine .script (@SubScan.Step.take _ _ [] [] _ _ [] _ (List.reverse_perm _) ?_)
    rw [scriptReferences_two, resolveAll_result]
    decide
  have ran : Fork.Run twoResolver (Fork.start twoSources) _ := .tail (.single style) script
  obtain ⟨possible, agrees⟩ := fork_join_agrees twoResolver twoSources
  obtain ⟨scripts, stylesheets, scannedScripts, scannedStyles⟩ := possible.mp ⟨_, ran, rfl, rfl⟩
  refine ⟨_, scripts, stylesheets, ran, ⟨rfl, rfl⟩, scannedScripts, scannedStyles, rfl, ?_⟩
  exact agrees scripts stylesheets scannedScripts scannedStyles _ ran ⟨rfl, rfl⟩ _ (by decide)

end Analysis

end Deadwood
