import Deadwood.Proofs.ImportedPackage
import Deadwood.Proofs.Importer

/-!
# References to packages

Which references are taken for packages can be said without the rules: imports
in files below the root whose text no earlier rule takes.  What a reference
comes to is dropped if the name of the folder of installed packages stands
anywhere in it, while discovery leaves a file out only for a whole segment.
The two tests differ on names that merely hold the folder's name, and files
with such names are found but can never be referred to.
-/

namespace Deadwood

/-! ## Segments of a path -/

namespace Path

variable {names : List Text} {path part : Text}

/-- A text without slashes occurs between slashes exactly if it occurs in one of the names. -/
theorem infix_join_iff (free : slash ∉ part) (nonempty : names ≠ []) :
    part <:+: join names ↔ ∃ name ∈ names, part <:+: name := by
  induction names with
  | nil => exact absurd rfl nonempty
  | cons first rest ih =>
    cases rest with
    | nil => simp [join, Text.joinWith]
    | cons second more =>
      rw [join_cons first (by simp), List.exists_mem_cons_iff, ← ih (by simp)]
      constructor
      -- The slash is not in the part, so no occurrence reaches over it.
      · exact Text.infix_of_separator free
      · rintro (before | behind)
        · exact before.trans (List.prefix_append _ _).isInfix
        · exact behind.trans ((List.suffix_cons _ _).trans (List.suffix_append _ _)).isInfix

theorem infix_iff_segment (free : slash ∉ part) :
    part <:+: path ↔ ∃ segment ∈ segments path, part <:+: segment := by
  conv_lhs => rw [← join_segments path]
  exact infix_join_iff free (Text.splitOn_ne_nil slash path)

end Path

/-- The path of a file or the name of a package. -/
def Resolution.target? : Resolution → Option Text
  | projectFile path => some path
  | package name => some name
  | unresolved .. => none

/-! ## References taken for packages -/

namespace Project

open Resolution

variable {project : Project} {reference : Reference} {importer text : Text}

/-- An importer that lies below the root: without the root at its front, if it begins with it, the text
is relative, and no step upwards leaves the root. -/
structure InRoot (project : Project) (importer : Text) : Prop where
  unrooted : (project.withoutRoot (forwardSlashes importer)).head? ≠ some Path.slash
  stays : (Path.reach? [] (project.withoutRoot (forwardSlashes importer))).isSome

/-- A normalized text lies below the root exactly if the text is relative and never climbs out of it. -/
theorem insideRoot_normalize_iff : insideRoot (Path.normalize text) = true ↔
    text.head? ≠ some Path.slash ∧ (Path.reach? [] text).isSome := by
  constructor
  · intro inside
    have unrooted : text.head? ≠ some Path.slash := by
      intro rooted
      rw [not_insideRoot_of_rooted rooted] at inside
      cases inside
    refine ⟨unrooted, ?_⟩
    rw [Option.isSome_iff_ne_none]
    intro left
    have outside := Path.not_insideRoot_of_reach (by simp) unrooted left
    rw [Path.append_join (by simp) unrooted, if_pos rfl, inside] at outside
    cases outside
  · rintro ⟨unrooted, stays⟩
    obtain ⟨names, reached⟩ := Option.isSome_iff_exists.mp stays
    obtain ⟨named, normalized⟩ := normalize_of_reached unrooted reached
    rw [normalized]
    exact (Path.toText_inside named).1

theorem inRoot_iff : project.InRoot importer ↔
    insideRoot (Path.normalize (project.withoutRoot (forwardSlashes importer))) = true := by
  rw [insideRoot_normalize_iff]
  exact ⟨fun inside => ⟨inside.unrooted, inside.stays⟩, fun inside => ⟨inside.1, inside.2⟩⟩

/-- The importers that are accepted are those below the root. -/
theorem importerPath_isSome_iff : (project.importerPath importer).isSome ↔ project.InRoot importer := by
  by_cases begins : project.rootStart <+: forwardSlashes importer
  · obtain ⟨rest, split⟩ := begins
    have cut : project.withoutRoot (forwardSlashes importer) = rest := by
      simp [withoutRoot, ← split, Text.startsWith_iff]
    rw [inRoot_iff, importerPath_of_start split.symm, cut]
    simp
  · have whole : project.withoutRoot (forwardSlashes importer) = forwardSlashes importer := by
      simp [withoutRoot, Text.startsWith_eq_false.mpr begins]
    by_cases rooted : (forwardSlashes importer).head? = some Path.slash
    · rw [importerPath_of_foreign begins rooted]
      refine iff_of_false (by simp) fun inside => inside.unrooted ?_
      rw [whole, rooted]
    · rw [inRoot_iff, importerPath, whole]
      simp [Text.startsWith_singleton_eq_false.mpr rooted]

/-- A reference is taken for a package exactly if it can be encoded, stands in a file below the root, is
an import, and has bare text; the package is named as the text is.  No attribute and no reference of a
stylesheet is one. -/
theorem taken_for_package_iff (project : Project) (reference : Reference) :
    (∀ name, project.resolve reference = .package name ↔
      Text.hasSurrogate reference.text = false ∧ Text.hasSurrogate reference.origin = false ∧
      project.InRoot reference.origin ∧
      (reference.site = .staticImport ∨ reference.site = .dynamicImport) ∧
      reference.spelling ≠ [] ∧ project.IsBare reference.spelling ∧ name = reference.spelling) ∧
    (reference.site = .assetAttribute ∨ reference.site = .styleImport →
      ∀ name, project.resolve reference ≠ .package name) := by
  constructor
  · intro name
    rw [resolve_eq_package_iff, ← importerPath_isSome_iff, Option.isSome_iff_exists]
    simp only [request?_eq_some]
    constructor
    · rintro ⟨imported, request, ⟨written, origin, nonempty, importer, below, rfl⟩, named, bare⟩
      exact ⟨written, origin, ⟨importer, below⟩, imported, nonempty, bare, named⟩
    · rintro ⟨written, origin, ⟨importer, below⟩, imported, nonempty, bare, named⟩
      exact ⟨imported, _, ⟨written, origin, nonempty, importer, below, rfl⟩, named, bare⟩
  · intro elsewhere name taken
    have imported := (resolve_eq_package_iff.mp taken).1
    rcases elsewhere with site | site
    · simp [site] at imported
    · simp [site] at imported

/-- An address is taken for a package, although it has a segment `src`. -/
example : ({ root := "/work/app", files := [] } : Project).resolve
    ⟨"src\\..\\lib/i.ts", " https://cdn/src/a.js", .dynamicImport⟩ = .package "https://cdn/src/a.js" := by
  decide

/-! ## References into the installed packages -/

/-- The name of the folder of installed packages. -/
def packagesFolder : Text := "node_modules"

/-- The file or the package that the rules make of a reference, before anything is dropped. -/
def target? (project : Project) (reference : Reference) : Option Text :=
  (project.request? reference).bind fun request =>
    (project.applyRule (project.ruleFor request) request).target?

/-- A reference is dropped for lying among the installed packages. -/
def IsDropped (project : Project) (reference : Reference) : Prop :=
  ∃ text, project.resolve reference = .unresolved text packagesReason

/-- None of the other reasons is the one for which references are dropped. -/
theorem other_ne_packagesReason : emptyReason ≠ packagesReason ∧ encodingReason ≠ packagesReason ∧
    outsideReason ≠ packagesReason ∧ nonProjectReason ≠ packagesReason ∧
    unknownReason ≠ packagesReason ∧ notFoundReason ≠ packagesReason := by
  decide

theorem finish_ne_dropped (project : Project) (target written text : Text) :
    project.finish target written ≠ .unresolved text packagesReason := by
  simp only [finish, probe]
  split
  case isTrue => simp [other_ne_packagesReason]
  case isFalse =>
    split
    case isTrue => simp
    case isFalse =>
      split
      case h_1 => simp
      case h_2 => simp [other_ne_packagesReason]

/-- No rule gives the reason for which references are dropped. -/
theorem applyRule_ne_dropped (project : Project) (rule : Rule) (request : Request) (text : Text) :
    project.applyRule rule request ≠ .unresolved text packagesReason := by
  cases rule with
  | aliased | relative | sourcePath => exact finish_ne_dropped project _ _ text
  | styleTilde =>
    simp only [applyRule]
    split
    case isTrue => exact finish_ne_dropped project _ _ text
    case isFalse => simp [other_ne_packagesReason]
  | dependency => simp [applyRule]
  | _ => simp [applyRule, other_ne_packagesReason]

theorem refusal_ne_dropped (reference : Reference) (text : Text) :
    (refusal reference).2.2 ≠ .unresolved text packagesReason := by
  have others := other_ne_packagesReason
  simp only [refusal]
  grind

/-- What a rule makes of a request is dropped exactly if the name of the folder occurs in its target. -/
theorem dropPackages_drops_iff {resolution : Resolution} {written : Text}
    (other : ∀ text, resolution ≠ .unresolved text packagesReason) :
    (∃ text, dropPackages resolution written = .unresolved text packagesReason) ↔
      ∃ target, resolution.target? = some target ∧ packagesFolder <:+: target := by
  cases resolution with
  | projectFile target | package target =>
    simp only [dropPackages, Resolution.target?, Option.some.injEq, exists_eq_left', packagesFolder,
      ← Text.contains_iff]
    split
    case isTrue holds => simp [holds]
    case isFalse free => simp [free]
  | unresolved text reason =>
    refine iff_of_false ?_ (by simp [Resolution.target?])
    rintro ⟨written, same⟩
    exact other written same

theorem isDropped_iff : project.IsDropped reference ↔
    ∃ target, project.target? reference = some target ∧ packagesFolder <:+: target := by
  cases made : project.request? reference with
  | none =>
    simp only [IsDropped, resolve, explain_of_no_request made, target?, made]
    simp [refusal_ne_dropped]
  | some request =>
    simp only [IsDropped, resolve_of_request made, target?, made, Option.bind_some]
    exact dropPackages_drops_iff (applyRule_ne_dropped project _ request)

/-- Some segment of a path holds the name of the folder of installed packages, if only as a part. -/
def MentionsPackages (path : Text) : Prop :=
  ∃ segment ∈ Path.segments path, packagesFolder <:+: segment

theorem mentionsPackages_iff {path : Text} : MentionsPackages path ↔ packagesFolder <:+: path :=
  (Path.infix_iff_segment (by decide)).symm

/-- A text stands in another, with something before it or behind it. -/
def Embeds (part text : Text) : Prop := ∃ before behind, text = before ++ part ++ behind ∧ before ++ behind ≠ []

/-- A path that mentions the folder has it for a segment, or its name inside of one. -/
theorem mentionsPackages_iff_embeds {path : Text} : MentionsPackages path ↔
    packagesFolder ∈ Path.segments path ∨ ∃ segment ∈ Path.segments path, Embeds packagesFolder segment := by
  constructor
  · rintro ⟨segment, listed, before, behind, split⟩
    by_cases whole : before ++ behind = []
    · obtain ⟨rfl, rfl⟩ := List.append_eq_nil_iff.mp whole
      rw [List.nil_append, List.append_nil] at split
      exact .inl (split ▸ listed)
    · exact .inr ⟨segment, listed, before, behind, split.symm, whole⟩
  · rintro (listed | ⟨segment, listed, before, behind, split, -⟩)
    · exact ⟨packagesFolder, listed, List.infix_rfl⟩
    · exact ⟨segment, listed, before, behind, split.symm⟩

theorem not_resolve_of_mentions {path : Text} (mentions : MentionsPackages path) :
    project.resolve reference ≠ .projectFile path := by
  intro named
  have free := (resolve_eq_projectFile.mp named).1
  rw [Bool.eq_false_iff, ne_eq, Text.contains_iff] at free
  exact free (mentionsPackages_iff.mp mentions)

end Project

/-- Which paths are those of a source: they have no skipped folder as a segment and do not begin like the
backup folder. -/
theorem Discovery.isCandidate_iff {folder path : Text} : isCandidate folder path = true ↔
    (∀ name ∈ skippedFolders, name ∉ Path.segments path) ∧ ¬ backupStart folder <+: path := by
  have steps : ∀ name ∈ skippedFolders, name ≠ [] ∧ name ≠ Path.here ∧ Path.slash ∉ name := by decide
  have parts : (∀ name ∈ skippedFolders, name ∉ (Path.Parsed.ofText path).parts) ↔
      ∀ name ∈ skippedFolders, name ∉ Path.segments path := by
    refine forall₂_congr fun name member => not_congr ?_
    obtain ⟨nonempty, notHere, free⟩ := steps name member
    have step : Path.IsStep name := ⟨nonempty, notHere, free⟩
    rw [step.mem_parts_iff, step.mem_properSegments_iff]
  rw [isCandidate, Bool.and_eq_true, Bool.not_eq_true', Bool.not_eq_true', Text.startsWith_eq_false,
    ← parts]
  simp only [List.any_eq_false, List.contains_iff_mem]
  grind

namespace Analysis

open Project

variable {tree after : FileTree} {path : Path.Parsed} {settings : Settings} {report : Report}

/-- A run reports every file that mentions the folder, unless it is withheld. -/
theorem mem_unused_of_mentions {sources : Discovery} {file : Text}
    (ran : (run tree path settings).result = .ok (report, after))
    (scanned : (Discovery.scan tree (tree.resolve path) settings).result = .ok sources)
    (found : file ∈ sources.files) (mentions : MentionsPackages file)
    (shown : ¬ Withholds settings file) : file ∈ report.unused := by
  obtain ⟨others, scripts, stylesheets, ledger, rescanned, scannedScripts, scannedStyles, entered,
    reported⟩ := run_eq_ok ran
  rw [scanned, Except.ok.injEq] at rescanned
  subst rescanned
  rw [mem_unused_of_entered entered reported,
    mem_resolutions (Discovery.scan_finds scanned) scannedScripts scannedStyles]
  refine ⟨found, shown, ?_⟩
  rintro ⟨reference, -, named⟩
  exact not_resolve_of_mentions mentions named

theorem packagesFolder_not_mem_found {sources : Discovery} {file : Text}
    (scanned : (Discovery.scan tree (tree.resolve path) settings).result = .ok sources)
    (found : file ∈ sources.files) : packagesFolder ∉ Path.segments file := by
  have candidate : Discovery.isCandidate settings.backupFolder file = true := by
    rcases ((Discovery.scan_finds scanned).files file).mp found with selected | selected
    · obtain ⟨-, -, -, -, -, -, -, candidate⟩ := selected
      exact candidate
    · obtain ⟨-, -, -, -, -, -, -, candidate⟩ := selected
      exact candidate
  exact (Discovery.isCandidate_iff.mp candidate).1 packagesFolder (by decide)

/-- A reference is dropped exactly if its target mentions the folder of installed packages.  This differs from having
the folder for a segment exactly on targets that have no such segment, but one in which the folder's name stands
together with something else.  A found file never has the folder for a segment; if it mentions the folder all the same,
no reference ever names it, and a run reports it unless it is withheld. -/
theorem dropped_by_mention (project : Project) (reference : Reference) :
    (project.IsDropped reference ↔
      ∃ target, project.target? reference = some target ∧ MentionsPackages target) ∧
    (∀ target, project.target? reference = some target →
      (¬ (project.IsDropped reference ↔ packagesFolder ∈ Path.segments target) ↔
        packagesFolder ∉ Path.segments target ∧ ∃ segment ∈ Path.segments target, Embeds packagesFolder segment)) ∧
    ∀ tree path settings report after, (run tree path settings).result = .ok (report, after) →
      ∃ sources, (Discovery.scan tree (tree.resolve path) settings).result = .ok sources ∧
        ∀ file ∈ sources.files, packagesFolder ∉ Path.segments file ∧
          (MentionsPackages file → project.resolve reference ≠ .projectFile file ∧
            (¬ Withholds settings file → file ∈ report.unused)) := by
  have dropped : project.IsDropped reference ↔
      ∃ target, project.target? reference = some target ∧ MentionsPackages target := by
    simp only [isDropped_iff, mentionsPackages_iff]
  refine ⟨dropped, ?_, ?_⟩
  · intro target reached
    have mentioned : project.IsDropped reference ↔ MentionsPackages target := by
      simp [dropped, reached]
    rw [mentioned, mentionsPackages_iff_embeds]
    by_cases whole : packagesFolder ∈ Path.segments target
    · simp [whole]
    · simp [whole]
  · intro tree path settings report after ran
    obtain ⟨sources, -, -, -, scanned, -⟩ := run_eq_ok ran
    refine ⟨sources, scanned, fun file found => ⟨packagesFolder_not_mem_found scanned found, ?_⟩⟩
    intro mentions
    exact ⟨not_resolve_of_mentions mentions, mem_unused_of_mentions ran scanned found mentions⟩

/-- A script that imports the module beside it, whose name begins like the folder of packages. -/
def shimTree : FileTree := sampleTree "import './node_modules_shim'" ["node_modules_shim.ts"]

set_option maxRecDepth 100000 in
set_option synthInstance.maxSize 400 in
theorem sampleRun_shim :
    sampleRun shimTree [] (ended fun _ sources report _ => (sources.scripts, sources.files, report.unused)) =
      some (some ([(⟨"src/main.ts", "import './node_modules_shim'"⟩ : Source), ⟨"src/node_modules_shim.ts", []⟩],
        ["src/main.ts", "src/node_modules_shim.ts"].map Text.ofString,
        ["src/main.ts", "src/node_modules_shim.ts"].map Text.ofString)) := by
  simp only [sampleRun, run, ledgerOf, Discovery.scan, Discovery.select, Settings.ignoredSuffixes,
    Text.sortedSet, Text.mergeSort_eq_insertionSort]
  decide +kernel

set_option maxRecDepth 100000 in
theorem extract_shim : Script.extract "src/main.ts" "import './node_modules_shim'" =
    .ok [⟨"src/main.ts", "./node_modules_shim", .staticImport⟩] :=
  Outcome.toOption_eq_some.mp (by decide +kernel)

/-- A found file that has no folder of packages for a segment is dropped and reported, although a scanned
script imports it. -/
theorem found_file_dropped :
    let project : Project :=
      { root := "/p", files := ["src/main.ts", "src/node_modules_shim.ts"].map Text.ofString }
    let reference : Reference := ⟨"src/main.ts", "./node_modules_shim", .staticImport⟩
    let file : Text := "src/node_modules_shim.ts"
    packagesFolder ∉ Path.segments file ∧ project.target? reference = some file ∧
    project.IsDropped reference ∧
    ∃ settings sources report after, Settings.ofLayer [] = .ok settings ∧
      (Discovery.scan shimTree (shimTree.resolve sampleRoot) settings).result = .ok sources ∧
      (run shimTree sampleRoot settings).result = .ok (report, after) ∧
      ⟨"src/main.ts", "import './node_modules_shim'"⟩ ∈ sources.scripts ∧
      Script.extract "src/main.ts" "import './node_modules_shim'" = .ok [reference] ∧
      file ∈ sources.files ∧ file ∈ report.unused := by
  intro project reference file
  obtain ⟨settings, sources, report, after, accepted, scanned, ran, seen⟩ := sampleRun_ended sampleRun_shim
  simp only [Prod.mk.injEq] at seen
  obtain ⟨scripts, files, unused⟩ := seen
  have reached : project.target? reference = some file := by decide +kernel
  have mentions : MentionsPackages file := ⟨"node_modules_shim.ts", by decide, by decide⟩
  refine ⟨by decide, reached, ?_, settings, sources, report, after, accepted, scanned, ran,
    by simp [scripts], extract_shim, by simp [files, file], by simp [unused, file]⟩
  exact isDropped_iff.mpr ⟨file, reached, mentionsPackages_iff.mp mentions⟩

end Analysis

end Deadwood
