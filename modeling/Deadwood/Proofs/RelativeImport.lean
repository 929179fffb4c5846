import Deadwood.Proofs.Unused

/-!
# Imports that spell out a file

A relative import that leads from its script to a file, written in full, is
resolved to that file exactly if the file has a recognized extension.  Patterns
can select files with other extensions; to those no spelling leads, and they
are reported although they are imported.
-/

namespace Deadwood

namespace Path

/-- A canonical path that is taken as it is written, outside the installed packages. -/
structure IsPlain (path : Text) : Prop where
  canonical : IsCanonical path
  encodable : Text.hasSurrogate path = false
  unescaped : Codepoint.char '\\' ∉ path
  trimmed : Text.trim path = path
  outside : Text.contains path "node_modules" = false

theorem IsCanonical.insideRoot {path : Text} (canonical : IsCanonical path) :
    Resolution.insideRoot path = true := by
  refine Resolution.insideRoot_iff.mpr ⟨?_, ?_, canonical.head?_ne_slash⟩
  · rintro rfl
    exact absurd canonical (by decide)
  · rintro ⟨rest, rfl⟩
    have climbs : segments (up ++ [slash] ++ rest) = segments up ++ segments rest := by
      rw [List.append_assoc, List.singleton_append]
      exact Text.splitOn_append_separator slash up rest
    have first := canonical up (by rw [climbs]; exact List.mem_append_left _ (by decide))
    exact first.2.2 rfl

end Path

namespace Project

open Resolution

variable {project : Project} {importer file spelling : Text} {reference : Reference}

theorem forwardSlashes_eq_self {text : Text} (unescaped : Codepoint.char '\\' ∉ text) :
    forwardSlashes text = text := by
  have same : ∀ c ∈ text, (if c = Codepoint.char '\\' then Path.slash else c) = c := by
    intro c member
    apply if_neg
    rintro rfl
    exact unescaped member
  rw [forwardSlashes, Text.replaceChar, List.map_congr_left same, List.map_id']

theorem head?_rootStart (rooted : project.root.head? = some Path.slash) :
    project.rootStart.head? = some Path.slash := by
  have slashes : Path.rootSlashes project.root ≠ 0 := fun equal =>
    Path.rootSlashes_eq_zero_iff.mp equal rooted
  obtain ⟨count, equal⟩ := Nat.exists_eq_succ_of_ne_zero slashes
  have text : (Path.Parsed.ofText project.root).toText.head? = some Path.slash := by
    simp [Path.Parsed.toText, Path.Parsed.ofText, equal, List.replicate_succ]
  obtain ⟨rest, split⟩ : Text.trimEndBy (· = Path.slash) (Path.Parsed.ofText project.root).toText <+:
      (Path.Parsed.ofText project.root).toText := List.rdropWhile_prefix _ _
  rw [rootStart]
  cases trimmed : Text.trimEndBy (· = Path.slash) (Path.Parsed.ofText project.root).toText with
  | nil => rfl
  | cons c more =>
    rw [← split, trimmed] at text
    exact text

/-- An importer's canonical path is its path from a rooted folder. -/
theorem importerPath_eq_some (rooted : project.rootStart.head? = some Path.slash)
    (canonical : Path.IsCanonical importer) (unescaped : Codepoint.char '\\' ∉ importer) :
    project.importerPath importer = some importer := by
  have relative := canonical.head?_ne_slash
  have outside : Text.startsWith importer project.rootStart = false := by
    rw [Bool.eq_false_iff, ne_eq, Text.startsWith_iff]
    rintro ⟨rest, rfl⟩
    rw [List.head?_append, rooted] at relative
    exact relative rfl
  have unrooted : Text.startsWith importer [Path.slash] = false := by
    rw [Bool.eq_false_iff, ne_eq, Text.startsWith_singleton]
    exact relative
  simp [importerPath, forwardSlashes_eq_self unescaped, outside, unrooted, withoutRoot,
    canonical.normalize_eq, canonical.insideRoot]

theorem request?_of_spelling (rooted : project.root.head? = some Path.slash)
    (importing : Path.IsPlain importer) (plain : Path.IsPlain file)
    (spelled : Path.IsRelativeSpelling importer file spelling) (site : Site) :
    project.request? { origin := importer, text := spelling, site } =
      some { importer, text := spelling, site } := by
  have encodable : Text.hasSurrogate spelling = false := by
    rw [Text.hasSurrogate, List.any_eq_false]
    intro c member
    rcases spelled.mem member with rfl | rfl | inside
    · decide
    · decide
    · exact List.any_eq_false.mp plain.encodable c inside
  have unescaped : Codepoint.char '\\' ∉ spelling := by
    intro member
    rcases spelled.mem member with slash | point | inside
    · exact absurd slash (by decide)
    · exact absurd point (by decide)
    · exact plain.unescaped inside
  have trimmed : Text.trim spelling = spelling := by
    apply Text.trim_eq_self
    · intro c head
      rw [spelled.head?, Option.mem_some_iff] at head
      subst head
      decide
    · intro c last
      rw [spelled.getLast? plain.canonical, ← plain.trimmed] at last
      exact Text.getLast?_trim last
  have nonempty : spelling ≠ [] := by
    rintro rfl
    exact absurd spelled.head? (by simp)
  have slashed : forwardSlashes (Text.trim spelling) = spelling := by
    rw [trimmed, forwardSlashes_eq_self unescaped]
  refine request?_eq_some.mpr ⟨encodable, importing.encodable, ?_, importer,
    importerPath_eq_some (head?_rootStart rooted) importing.canonical importing.unescaped, ?_⟩
  · rwa [slashed]
  · rw [slashed]

/-- A static import that spells out a file is resolved to it exactly if it has a recognized extension. -/
theorem resolve_of_spelling (rooted : project.root.head? = some Path.slash)
    (aliased : project.aliasStart = "@/") (importing : Path.IsPlain importer)
    (plain : Path.IsPlain file) (spelled : Path.IsRelativeSpelling importer file spelling) :
    project.resolve { origin := importer, text := spelling, site := .staticImport } =
      .projectFile file ↔ hasRecognizedExtension file = true := by
  have made := request?_of_spelling rooted importing plain spelled .staticImport
  have rule : project.ruleFor { importer, text := spelling, site := .staticImport } = .relative := by
    have unaliased : Text.startsWith spelling project.aliasStart = false := by
      rw [Bool.eq_false_iff, ne_eq, Text.startsWith_iff, aliased]
      rintro ⟨rest, equal⟩
      have head := spelled.head?
      rw [← equal] at head
      exact absurd head (by simp [Text.ofString])
    have relative : Text.startsWith spelling "." = true :=
      Text.startsWith_singleton.mpr spelled.head?
    simp [ruleFor, unaliased, relative]
  have seeks : project.pathSought? { origin := importer, text := spelling, site := .staticImport } =
      some (Path.append (Path.folder importer) spelling) := by
    simp [pathSought?, made, rule, sought?]
  have reached := spelled.normalize_eq importing.canonical plain.canonical
  rw [resolve_eq_projectFile, seeks]
  constructor
  · rintro ⟨-, sought, equal, -, found⟩
    cases equal
    rw [reached] at found
    by_contra unrecognized
    rw [if_neg unrecognized] at found
    -- A probe only finds longer paths.
    obtain ⟨-, suffix, member, longer⟩ := probe_eq_projectFile found
    rw [trimEndBy_slash_eq_self plain.canonical.getLast?_ne_slash, List.self_eq_append_right] at longer
    rw [longer] at member
    exact absurd member (by decide)
  · intro recognized
    refine ⟨plain.outside, _, rfl, ?_, ?_⟩
    · rw [reached]
      exact plain.canonical.insideRoot
    · rw [reached, if_pos recognized]

end Project

namespace Analysis

variable {tree after : FileTree} {path : Path.Parsed} {settings : Settings} {report : Report}

theorem origin_of_extract {path text : Text} {references : List Reference} {reference : Reference}
    (parsed : Script.extract path text = .ok references) (member : reference ∈ references) :
    reference.origin = path := by
  simp only [Script.extract] at parsed
  split at parsed
  case h_1 => cases parsed
  case h_2 source encoded =>
    split at parsed
    case isTrue => cases parsed
    case isFalse =>
      cases parsed
      obtain ⟨⟨site, found⟩, -, rfl⟩ := List.mem_map.mp member
      rfl

/-- A static import in a scanned script that spells out a file is resolved to the file exactly if the
file has a recognized extension, and such a file is not reported as unused. -/
theorem spelled_import_not_unused {sources : Discovery} {script : Source} {references : List Reference}
    {reference : Reference} {file : Text}
    (ran : (run tree path settings).result = .ok (report, after))
    (scanned : (Discovery.scan tree (tree.resolve path) settings).result = .ok sources)
    (aliased : settings.aliasStart.text? = some "@/") (listed : script ∈ sources.scripts)
    (parsed : Script.extract script.path script.text = .ok references)
    (member : reference ∈ references) (imported : reference.site = .staticImport)
    (importing : Path.IsPlain script.path) (plain : Path.IsPlain file)
    (spelled : Path.IsRelativeSpelling script.path file reference.text) :
    ((resolverOf (tree.resolve path) settings sources.files).project.resolve reference =
        .projectFile file ↔ hasRecognizedExtension file = true) ∧
      (hasRecognizedExtension file = true → file ∉ report.unused) := by
  have resolved : (resolverOf (tree.resolve path) settings sources.files).project.resolve reference =
      .projectFile file ↔ hasRecognizedExtension file = true := by
    have origin := origin_of_extract parsed member
    obtain ⟨start, text, site⟩ := reference
    subst origin imported
    refine Project.resolve_of_spelling ?_ ?_ importing plain spelled
    · rfl
    · simp [resolverOf, aliased]
  refine ⟨resolved, fun recognized reported => ?_⟩
  obtain ⟨others, scripts, stylesheets, ledger, rescanned, scannedScripts, scannedStyles, entered,
    unused⟩ := run_eq_ok ran
  rw [scanned, Except.ok.injEq] at rescanned
  subst rescanned
  have finds := Discovery.scan_finds scanned
  obtain ⟨selected, reads⟩ := (finds.scripts script).mp listed
  have unnamed := ((mem_unused_of_entered entered unused).mp reported).2.2
  apply unnamed
  rw [mem_resolutions finds scannedScripts scannedStyles]
  exact ⟨reference, .script selected reads parsed member, resolved.mpr recognized⟩

theorem isPlain_main : Path.IsPlain "src/main.ts" :=
  ⟨by decide, by decide, by decide, by decide, by decide⟩

/-- A script that imports the module beside it by its full name. -/
def spelledTree : FileTree := sampleTree "import './used.ts'" ["used.ts"]

set_option maxRecDepth 100000 in
theorem sampleRun_spelled :
    sampleRun spelledTree [] (ended fun settings sources _ _ => (settings.aliasStart.text?, sources.scripts)) =
      some (some (some ("@/" : Text), [⟨"src/main.ts", "import './used.ts'"⟩, ⟨"src/used.ts", []⟩])) := by
  simp only [sampleRun, run, ledgerOf, Discovery.scan, Discovery.select, Settings.ignoredSuffixes,
    Text.sortedSet, Text.mergeSort_eq_insertionSort]
  decide +kernel

set_option maxRecDepth 100000 in
theorem extract_spelled : Script.extract "src/main.ts" "import './used.ts'" =
    .ok [⟨"src/main.ts", "./used.ts", .staticImport⟩] :=
  Outcome.toOption_eq_some.mp (by decide +kernel)

/-- An imported module with a recognized extension is not reported. -/
theorem spelled_import_not_unused_module : ∃ settings report after,
    Settings.ofLayer [] = .ok settings ∧
    (run spelledTree sampleRoot settings).result = .ok (report, after) ∧
    Path.IsRelativeSpelling "src/main.ts" "src/used.ts" "./used.ts" ∧
    Text.ofString "src/used.ts" ∉ report.unused := by
  obtain ⟨settings, sources, report, after, accepted, scanned, ran, seen⟩ := sampleRun_ended sampleRun_spelled
  obtain ⟨aliased, scripts⟩ := Prod.mk.inj seen
  have listed : ⟨"src/main.ts", "import './used.ts'"⟩ ∈ sources.scripts := by simp [scripts]
  have plain : Path.IsPlain "src/used.ts" :=
    ⟨by decide, by decide, by decide, by decide, by decide⟩
  have spelled : Path.IsRelativeSpelling "src/main.ts" "src/used.ts" "./used.ts" :=
    ⟨["src"], [], "main.ts", ["used.ts"], by decide, by decide, by decide, by decide⟩
  exact ⟨settings, report, after, accepted, ran, spelled,
    (spelled_import_not_unused ran scanned aliased listed extract_spelled (List.mem_singleton_self _)
      rfl isPlain_main plain spelled).2 (by decide)⟩

/-- A script that imports the file beside it by its full name, which has an extension that patterns
select but no reference recognizes. -/
def unrecognizedTree : FileTree := sampleTree "import './a.js'" ["a.js"]

/-- Script patterns for two extensions. -/
def widerPatterns : Layer := [("script_patterns", .texts ["src/**/*.ts", "src/**/*.js"])]

set_option maxRecDepth 100000 in
set_option synthInstance.maxSize 400 in
theorem sampleRun_unrecognized :
    sampleRun unrecognizedTree widerPatterns (ended fun settings sources report _ =>
        (settings.aliasStart.text?, sources.scripts, sources.files, report.unused)) =
      some (some (some ("@/" : Text), [(⟨"src/a.js", []⟩ : Source), ⟨"src/main.ts", "import './a.js'"⟩],
        [("src/a.js" : Text), "src/main.ts"], [("src/a.js" : Text), "src/main.ts"])) := by
  simp only [sampleRun, run, ledgerOf, Discovery.scan, Discovery.select, Settings.ignoredSuffixes,
    Text.sortedSet, Text.mergeSort_eq_insertionSort]
  decide +kernel

set_option maxRecDepth 100000 in
theorem extract_unrecognized : Script.extract "src/main.ts" "import './a.js'" =
    .ok [⟨"src/main.ts", "./a.js", .staticImport⟩] :=
  Outcome.toOption_eq_some.mp (by decide +kernel)

/-- A scanned file can be reported although a scanned script imports it by its full name. -/
theorem spelled_import_unused : ∃ settings sources report after references,
    Settings.ofLayer widerPatterns = .ok settings ∧ settings.aliasStart.text? = some "@/" ∧
    (run unrecognizedTree sampleRoot settings).result = .ok (report, after) ∧
    (Discovery.scan unrecognizedTree (unrecognizedTree.resolve sampleRoot) settings).result =
      .ok sources ∧
    ⟨"src/main.ts", "import './a.js'"⟩ ∈ sources.scripts ∧
    Script.extract "src/main.ts" "import './a.js'" = .ok references ∧
    ⟨"src/main.ts", "./a.js", .staticImport⟩ ∈ references ∧
    Path.IsPlain "src/main.ts" ∧ Path.IsPlain "src/a.js" ∧
    Path.IsRelativeSpelling "src/main.ts" "src/a.js" "./a.js" ∧
    Text.ofString "src/a.js" ∈ sources.files ∧ Text.ofString "src/a.js" ∈ report.unused := by
  obtain ⟨settings, sources, report, after, accepted, scanned, ran, seen⟩ := sampleRun_ended sampleRun_unrecognized
  simp only [Prod.mk.injEq] at seen
  obtain ⟨aliased, scripts, files, unused⟩ := seen
  have plain : Path.IsPlain "src/a.js" :=
    ⟨by decide, by decide, by decide, by decide, by decide⟩
  have spelled : Path.IsRelativeSpelling "src/main.ts" "src/a.js" "./a.js" :=
    ⟨["src"], [], "main.ts", ["a.js"], by decide, by decide, by decide, by decide⟩
  exact ⟨settings, sources, report, after, _, accepted, aliased, ran, scanned, by simp [scripts],
    extract_unrecognized, List.mem_singleton_self _, isPlain_main, plain, spelled, by simp [files],
    by simp [unused]⟩

end Analysis

end Deadwood
