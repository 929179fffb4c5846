import Deadwood.Proofs.Overlap
import Deadwood.Proofs.RelativeImport

/-!
# Packages that are imported

A declared package is reported exactly if no pattern excuses it and no import
is taken for it.  An import that begins with the name of a package is taken for
the package exactly if no earlier rule takes its text, and the rest of the text
behind the name can bring that about: a folder `src` in it makes the import a
path of the project.
-/

namespace Deadwood

/-! ## Names of packages -/

namespace Package

variable {name specifier : Text}

/-- How many segments of a specifier name its package: two behind a scope. -/
def segmentCount (specifier : Text) : Nat := if Text.startsWith specifier "@" then 2 else 1

/-- The name of a package: one segment, or two of which the first is a scope. -/
def IsName (name : Text) : Prop := (Path.segments name).length = segmentCount name

instance : Decidable (IsName name) := inferInstanceAs (Decidable (_ = _))

/-- A specifier for a package or for something in it. -/
def IsWithin (name specifier : Text) : Prop := specifier = name ∨ name ++ [Path.slash] <+: specifier

theorem segmentCount_pos (specifier : Text) : 0 < segmentCount specifier := by
  simp only [segmentCount]
  split <;> decide

theorem nameOf_eq (specifier : Text) :
    nameOf specifier = Path.join ((Path.segments specifier).take (segmentCount specifier)) := by
  simp only [nameOf, segmentCount]
  split
  case isTrue => rfl
  case isFalse =>
    cases split : Path.segments specifier with
    | nil => exact absurd split (Text.splitOn_ne_nil _ _)
    | cons first rest =>
      rw [show Text.splitOn '/' specifier = first :: rest from split]
      simp [Path.join, Text.joinWith]

theorem IsName.nameOf_eq_self (named : IsName name) : nameOf name = name := by
  rw [nameOf_eq, ← show _ = segmentCount name from named, List.take_length, Path.join_segments]

/-- A specifier begins with the name of its package, up to a slash or to its own end. -/
theorem isWithin_nameOf (specifier : Text) : IsWithin (nameOf specifier) specifier := by
  have whole := Path.join_segments specifier
  have parts := List.take_append_drop (segmentCount specifier) (Path.segments specifier)
  rw [nameOf_eq]
  cases rest : (Path.segments specifier).drop (segmentCount specifier) with
  | nil =>
    left
    rw [List.take_of_length_le (List.drop_eq_nil_iff.mp rest), whole]
  | cons next others =>
    right
    have named : (Path.segments specifier).take (segmentCount specifier) ≠ [] := by
      simp [List.take_eq_nil_iff, (segmentCount_pos specifier).ne', Path.segments]
    rw [rest] at parts
    rw [← parts, Path.join_append named (by simp)] at whole
    exact ⟨_, by simpa using whole⟩

/-- Behind a slash nothing changes the name. -/
theorem IsName.nameOf_append (named : IsName name) (rest : Text) :
    nameOf (name ++ Path.slash :: rest) = name := by
  have parts : Path.segments (name ++ Path.slash :: rest) =
      Path.segments name ++ Path.segments rest := Text.splitOn_append_separator Path.slash name rest
  have scope : Text.startsWith (name ++ Path.slash :: rest) "@" = Text.startsWith name "@" := by
    cases name with
    | nil => rfl
    | cons c more => rfl
  have count : segmentCount (name ++ Path.slash :: rest) = (Path.segments name).length := by
    rw [segmentCount, scope]
    exact named.symm
  rw [nameOf_eq, count, parts, List.take_left, Path.join_segments]

theorem nameOf_eq_iff (named : IsName name) : nameOf specifier = name ↔ IsWithin name specifier := by
  constructor
  · rintro rfl
    exact isWithin_nameOf specifier
  · rintro (rfl | ⟨rest, rfl⟩)
    · exact named.nameOf_eq_self
    · rw [List.append_assoc]
      exact named.nameOf_append rest

/-- A name that is taken as it is written. -/
structure IsPlain (name : Text) : Prop where
  nonempty : name ≠ []
  trimmed : Text.trim name = name
  unescaped : Codepoint.char '\\' ∉ name

/-- A beginning that ends in a slash is not trimmed away. -/
theorem prefix_trim {start : Text} (first : ∀ c ∈ (start ++ [Path.slash]).head?, c.isBlank = false)
    (begins : start ++ [Path.slash] <+: specifier) : start ++ [Path.slash] <+: Text.trim specifier := by
  obtain ⟨rest, rfl⟩ := begins
  have untouched : Text.trimStartBy Codepoint.isBlank (start ++ [Path.slash] ++ rest) =
      start ++ [Path.slash] ++ rest := by
    cases split : start ++ [Path.slash] with
    | nil => simp at split
    | cons c more => simp [Text.trimStartBy, first c (by simp [split])]
  have solid : Codepoint.isBlank Path.slash = false := by decide
  rw [Text.trim, untouched, Text.trimEndBy_eq_rdropWhile, List.rdropWhile, List.reverse_append,
    List.dropWhile_append]
  split
  · simp [solid]
  · simp

theorem IsWithin.trimmed (within : IsWithin name specifier) (plain : IsPlain name) :
    IsWithin name (Resolution.forwardSlashes (Text.trim specifier)) := by
  have same := Project.forwardSlashes_eq_self plain.unescaped
  rcases within with rfl | begins
  · exact .inl (by rw [plain.trimmed, same])
  · have first : ∀ c ∈ (name ++ [Path.slash]).head?, c.isBlank = false := by
      intro c head
      rw [List.head?_append_of_ne_nil _ plain.nonempty, ← plain.trimmed] at head
      exact Text.head?_trim head
    obtain ⟨rest, split⟩ := prefix_trim first begins
    refine .inr ⟨Resolution.forwardSlashes rest, ?_⟩
    have mapped : Resolution.forwardSlashes (name ++ [Path.slash] ++ rest) =
        Resolution.forwardSlashes name ++ [Path.slash] ++ Resolution.forwardSlashes rest := by
      simp only [Resolution.forwardSlashes, Text.replaceChar, List.map_append]
      rfl
    rw [← split, mapped, same]

end Package

/-! ## Imports taken for packages -/

namespace Project

open Resolution

variable {project : Project} {request : Request} {reference : Reference} {name text : Text}

/-- A text that no rule before the one for packages takes, outside the installed packages. -/
structure IsBare (project : Project) (text : Text) : Prop where
  unaliased : ¬ project.aliasStart <+: text
  undotted : text.head? ≠ some (Codepoint.char '.')
  placeless : Text.ofString "://" <:+: text ∨ ("src" : Text) ∉ Path.properSegments text
  outside : ¬ Text.ofString "node_modules" <:+: text

theorem mem_parts_src : ("src" : Text) ∈ (Path.Parsed.ofText text).parts ↔
    ("src" : Text) ∈ Path.properSegments text :=
  Path.IsStep.mem_parts_iff ⟨by decide, by decide, by decide⟩

theorem isBare_iff : project.IsBare text ↔ Text.startsWith text project.aliasStart = false ∧
    Text.startsWith text "." = false ∧
    (!Text.contains text "://" && (Path.Parsed.ofText text).parts.contains ("src" : Text)) = false ∧
    Text.contains text "node_modules" = false := by
  have pointed : Text.startsWith text "." = true ↔ text.head? = some (Codepoint.char '.') :=
    Text.startsWith_singleton
  have placed : (!Text.contains text "://" &&
        (Path.Parsed.ofText text).parts.contains ("src" : Text)) = true ↔
      ¬ Text.ofString "://" <:+: text ∧ ("src" : Text) ∈ Path.properSegments text := by
    rw [Bool.and_eq_true, Bool.not_eq_true', ← Bool.not_eq_true, Text.contains_iff,
      List.contains_iff_mem, mem_parts_src]
  simp only [← Bool.not_eq_true, pointed, placed, Text.startsWith_iff, Text.contains_iff, not_and_or,
    not_not]
  exact ⟨fun bare => ⟨bare.unaliased, bare.undotted, bare.placeless, bare.outside⟩,
    fun ⟨unaliased, undotted, placeless, outside⟩ => ⟨unaliased, undotted, placeless, outside⟩⟩

/-- A request is taken for a package exactly if it is an import of bare text. -/
theorem applyRule_eq_package_iff {written : Text} :
    dropPackages (project.applyRule (project.ruleFor request) request) written = .package name ↔
      (request.site = .staticImport ∨ request.site = .dynamicImport) ∧ name = request.text ∧
        project.IsBare request.text := by
  rw [dropPackages_eq_package, isBare_iff]
  constructor
  · rintro ⟨taken, outside⟩
    have decided := applyRule_eq_package taken
    have named : name = request.text := by
      rw [decided] at taken
      cases taken
      rfl
    rw [named] at outside
    refine ⟨(ruleFor_eq_dependency decided).2, named, ?_⟩
    simp only [ruleFor] at decided
    grind
  · rintro ⟨imported, rfl, unaliased, undotted, placeless, outside⟩
    have unstyled : request.site ≠ .styleImport := by
      rcases imported with static | dynamic
      · simp [static]
      · simp [dynamic]
    have decided : project.ruleFor request = .dependency := by
      simp only [ruleFor, unaliased, undotted, placeless, unstyled, imported, Bool.or_eq_true,
        decide_eq_true_eq, decide_false, Bool.false_and, Bool.false_or, Bool.false_eq_true, if_false,
        if_true]
    exact ⟨by rw [decided]; rfl, outside⟩

/-- A reference is taken for a package exactly if it is an import, passes the checks made before the
rules, and is bare; the package is named as the text is. -/
theorem resolve_eq_package_iff : project.resolve reference = .package name ↔
    (reference.site = .staticImport ∨ reference.site = .dynamicImport) ∧
      ∃ request, project.request? reference = some request ∧ name = request.text ∧
        project.IsBare request.text := by
  cases made : project.request? reference with
  | none =>
    obtain ⟨text, reason, equal⟩ := resolve_of_no_request made
    simp [equal]
  | some request =>
    have site : request.site = reference.site := by
      obtain ⟨-, -, -, importer, -, rfl⟩ := request?_eq_some.mp made
      rfl
    rw [resolve_of_request made, applyRule_eq_package_iff, site]
    simp

/-- A reference is taken for a package or for something in it. -/
def Uses (project : Project) (reference : Reference) (name : Text) : Prop :=
  ∃ specifier, project.resolve reference = .package specifier ∧ Package.nameOf specifier = name

/-- An import uses a package exactly if it reaches the rules, with bare text that begins with the
name of the package. -/
theorem uses_iff (named : Package.IsName name)
    (imported : reference.site = .staticImport ∨ reference.site = .dynamicImport) :
    project.Uses reference name ↔
      Text.hasSurrogate reference.text = false ∧ Text.hasSurrogate reference.origin = false ∧
      (project.importerPath reference.origin).isSome ∧
      forwardSlashes (Text.trim reference.text) ≠ [] ∧
      project.IsBare (forwardSlashes (Text.trim reference.text)) ∧
      Package.IsWithin name (forwardSlashes (Text.trim reference.text)) := by
  simp only [Uses, resolve_eq_package_iff, imported, true_and, request?_eq_some,
    Option.isSome_iff_exists]
  constructor
  · rintro ⟨specifier, ⟨request, ⟨written, origin, nonempty, importer, below, rfl⟩, rfl, bare⟩, equal⟩
    exact ⟨written, origin, ⟨importer, below⟩, nonempty, bare, (Package.nameOf_eq_iff named).mp equal⟩
  · rintro ⟨written, origin, ⟨importer, below⟩, nonempty, bare, within⟩
    exact ⟨_, ⟨_, ⟨written, origin, nonempty, importer, below, rfl⟩, rfl, bare⟩,
      (Package.nameOf_eq_iff named).mpr within⟩

/-- In a script with a plain path, for a package with a plain name, only the text can be in the way. -/
theorem uses_iff_isBare (rooted : project.root.head? = some Path.slash)
    (named : Package.IsName name) (plain : Package.IsPlain name)
    (imported : reference.site = .staticImport ∨ reference.site = .dynamicImport)
    (importing : Path.IsPlain reference.origin) (within : Package.IsWithin name reference.text) :
    project.Uses reference name ↔ Text.hasSurrogate reference.text = false ∧
      project.IsBare (forwardSlashes (Text.trim reference.text)) := by
  have trimmed := within.trimmed plain
  have nonempty : forwardSlashes (Text.trim reference.text) ≠ [] := by
    intro empty
    rw [empty] at trimmed
    rcases trimmed with equal | ⟨rest, equal⟩
    · exact plain.nonempty equal.symm
    · simp at equal
  rw [uses_iff named imported,
    importerPath_eq_some (head?_rootStart rooted) importing.canonical importing.unescaped]
  simp [importing.encodable, nonempty, trimmed]

end Project

namespace Analysis

variable {tree after : FileTree} {path root : Path.Parsed} {settings : Settings} {report : Report}

/-! ## Declared packages in the report -/

/-- A pattern of the settings keeps a package out of the report. -/
def Excuses (settings : Settings) (name : Text) : Prop :=
  ∃ values pattern, settings.ignoreDependencies.items = .ok values ∧ Value.text pattern ∈ values ∧
    Wildcard.accepts pattern name = true

theorem mapM_text?_eq_some {values : List Value} {texts : List Text} :
    values.mapM Value.text? = some texts ↔ values = texts.map Value.text := by
  constructor
  · intro read
    induction values generalizing texts with
    | nil =>
      cases read
      rfl
    | cons value rest ih =>
      simp only [List.mapM_cons, bind, Option.bind_eq_some_iff, pure, Option.some.injEq] at read
      obtain ⟨text, first, others, later, rfl⟩ := read
      cases value with
      | text written =>
        cases first
        rw [ih later, List.map_cons]
      | _ => cases first
  · rintro rfl
    exact mapM_text? texts

theorem text?_eq_some {value : Value} {text : Text} :
    value.text? = some text ↔ value = .text text := by
  cases value <;> simp [Value.text?]

/-- What is listed is declared, is not used and not excused, also if a pattern is no text. -/
theorem mem_unusedDeclared {declared used names : List Text} {patterns : List Value} {name : Text}
    (compared : unusedDeclared declared used patterns = .ok names) :
    name ∈ names ↔ name ∈ declared ∧ name ∉ used.map Package.nameOf ∧
      ∀ pattern, Value.text pattern ∈ patterns → Wildcard.accepts pattern name = false := by
  simp only [unusedDeclared] at compared
  split at compared
  case h_1 texts read =>
    cases compared
    rw [mapM_text?_eq_some.mp read]
    simp [Package.unusedDeclared]
  case h_2 =>
    split at compared
    case isFalse => cases compared
    case isTrue nothing =>
      cases compared
      rw [List.isEmpty_iff, Package.unusedDeclared, List.filter_eq_nil_iff] at nothing
      simp only [List.not_mem_nil, false_iff]
      rintro ⟨listed, unused, unexcused⟩
      apply nothing name listed
      -- The patterns that were tried are the texts before the first that is none.
      have untouched : ∀ pattern ∈ (patterns.takeWhile (·.text?.isSome)).filterMap Value.text?,
          Wildcard.accepts pattern name = false := by
        intro pattern tried
        obtain ⟨value, leading, written⟩ := List.mem_filterMap.mp tried
        rw [text?_eq_some.mp written] at leading
        exact unexcused pattern (List.takeWhile_subset _ leading)
      simp only [Bool.and_eq_true, Bool.not_eq_true', List.any_eq_false]
      refine ⟨by simpa using unused, fun pattern tried => ?_⟩
      simp [untouched pattern tried]

/-- A comparison with the manifest lists the declared packages that are neither used nor excused. -/
theorem unusedDependencies_eq_some {used names : List Text}
    (compared : (unusedDependencies tree root settings used).result = .ok (some names)) :
    ∃ declared, (Manifest.load tree root).result = .ok (some declared) ∧
      ∀ name, name ∈ names ↔
        name ∈ declared ∧ ¬ Excuses settings name ∧ name ∉ used.map Package.nameOf := by
  simp only [unusedDependencies, Noted.result_bind, Outcome.result_outcome, Except.bind] at compared
  split at compared
  case h_1 => cases compared
  case h_2 declared loaded =>
    simp only [Noted.result_bind, Outcome.bind_eq_ok, Outcome.liftFault_eq_ok] at compared
    simp only [bind, Outcome.bind_eq_ok] at compared
    obtain ⟨unused, ⟨values, items, listed⟩, done⟩ := compared
    cases done
    refine ⟨declared, loaded, fun name => ?_⟩
    rw [mem_unusedDeclared listed]
    simp [Excuses, items, and_comm]
  case h_3 => cases compared
  case h_4 => cases compared

/-- The comparison with the manifest that a run reports is made with the packages in its ledger. -/
theorem declared_of_run (ran : (run tree path settings).result = .ok (report, after)) :
    ∃ sources scripts stylesheets ledger,
      (Discovery.scan tree (tree.resolve path) settings).result = .ok sources ∧
      (scanScripts (resolverOf (tree.resolve path) settings sources.files) sources.scripts).result =
        .ok scripts ∧
      (scanStylesheets (resolverOf (tree.resolve path) settings sources.files)
        sources.stylesheets).result = .ok stylesheets ∧
      ledgerOf settings sources.files (scripts.resolutions ++ stylesheets.resolutions) = .ok ledger ∧
      (unusedDependencies tree (tree.resolve path) settings ledger.packages).result =
        .ok report.unusedDeclared := by
  rw [run_result] at ran
  split at ran
  case isTrue => cases ran
  case isFalse =>
    simp only [bind, Outcome.bind_eq_ok, Outcome.mapError_eq_ok] at ran
    obtain ⟨sources, scanned, scripts, scannedScripts, stylesheets, scannedStyles, ledger, entered,
      unused, -, declared, compared, cleaned, -, done⟩ := ran
    cases done
    exact ⟨sources, scripts, stylesheets, ledger, scanned, scannedScripts, scannedStyles, entered,
      compared⟩

theorem mem_packages_of_entered {files : List Text} {resolutions : List Resolution} {ledger : Ledger}
    {name : Text} (entered : ledgerOf settings files resolutions = .ok ledger) :
    name ∈ ledger.packages ↔ .package name ∈ resolutions := by
  simp only [ledgerOf, bind, Outcome.bind_eq_ok, pure, Except.pure, Except.ok.injEq] at entered
  obtain ⟨suffixes, suffixed, lines, lined, rfl⟩ := entered
  simp only [Ledger.close, Ledger.mem_packages_addAll]
  simp only [Ledger.start, List.not_mem_nil, false_or]

/-- A run that compares a manifest reports exactly the declared packages that no pattern excuses and
that no reference written in the project uses. -/
theorem mem_unusedDeclared_iff {sources : Discovery} {names : List Text}
    (ran : (run tree path settings).result = .ok (report, after))
    (scanned : (Discovery.scan tree (tree.resolve path) settings).result = .ok sources)
    (compared : report.unusedDeclared = some names) :
    ∃ declared, (Manifest.load tree (tree.resolve path)).result = .ok (some declared) ∧
      ∀ name, name ∈ names ↔ name ∈ declared ∧ ¬ Excuses settings name ∧
        ∀ reference, Written tree (tree.resolve path) settings reference →
          ¬ (resolverOf (tree.resolve path) settings sources.files).project.Uses reference name := by
  obtain ⟨others, scripts, stylesheets, ledger, rescanned, scannedScripts, scannedStyles, entered,
    listed⟩ := declared_of_run ran
  rw [scanned, Except.ok.injEq] at rescanned
  subst rescanned
  rw [compared] at listed
  obtain ⟨declared, loaded, members⟩ := unusedDependencies_eq_some listed
  have resolved := mem_resolutions (Discovery.scan_finds scanned) scannedScripts scannedStyles
  refine ⟨declared, loaded, fun name => ?_⟩
  rw [members]
  simp only [List.mem_map, mem_packages_of_entered entered, resolved, Project.Uses]
  grind

/-- An import in a scanned script that begins with the name of a package uses the package exactly if
it reaches the rules with bare text; in a script with a plain path, with a plain name, only the text
can be in the way.  A package that is used is not reported, and of the other declared ones those are
that no pattern excuses. -/
theorem imported_package_not_unused {sources : Discovery} {script : Source}
    {references : List Reference} {reference : Reference} {name : Text}
    (ran : (run tree path settings).result = .ok (report, after))
    (scanned : (Discovery.scan tree (tree.resolve path) settings).result = .ok sources)
    (listed : script ∈ sources.scripts)
    (parsed : Script.extract script.path script.text = .ok references)
    (member : reference ∈ references)
    (imported : reference.site = .staticImport ∨ reference.site = .dynamicImport)
    (named : Package.IsName name) (within : Package.IsWithin name reference.text) :
    let project := (resolverOf (tree.resolve path) settings sources.files).project
    let text := Resolution.forwardSlashes (Text.trim reference.text)
    (project.Uses reference name ↔
      Text.hasSurrogate reference.text = false ∧ Text.hasSurrogate script.path = false ∧
      (project.importerPath script.path).isSome ∧ text ≠ [] ∧ project.IsBare text ∧
      Package.IsWithin name text) ∧
    (Path.IsPlain script.path → Package.IsPlain name →
      (project.Uses reference name ↔
        Text.hasSurrogate reference.text = false ∧ project.IsBare text)) ∧
    ∀ names, report.unusedDeclared = some names →
      (project.Uses reference name → name ∉ names) ∧
      ∃ declared, (Manifest.load tree (tree.resolve path)).result = .ok (some declared) ∧
        ∀ other, other ∈ names ↔ other ∈ declared ∧ ¬ Excuses settings other ∧
          ∀ reference, Written tree (tree.resolve path) settings reference →
            ¬ project.Uses reference other := by
  intro project text
  have origin := origin_of_extract parsed member
  refine ⟨origin ▸ Project.uses_iff named imported, ?_, ?_⟩
  · intro importing plain
    exact Project.uses_iff_isBare rfl named plain imported (origin ▸ importing) within
  · intro names compared
    obtain ⟨declared, loaded, members⟩ := mem_unusedDeclared_iff ran scanned compared
    refine ⟨fun uses reported => ?_, declared, loaded, members⟩
    obtain ⟨selected, reads⟩ := ((Discovery.scan_finds scanned).scripts script).mp listed
    exact ((members name).mp reported).2.2 reference (.script selected reads parsed member) uses

/-- A project in the folder `p`: a script, and a manifest that declares packages. -/
def manifestTree (script manifest : String) : FileTree where
  here := []
  entries := (sampleTree script []).entries ++ [([("p" : Text), Manifest.fileName],
    .file { bytes := manifest.toList.map fun c => c.toNat.toUInt8 })]

/-- The alias, the scripts and the packages of a run that ends. -/
def declaredView : Settings → Except Failure Discovery → Except Failure (Report × FileTree) →
    Option (Option Text × List Source × Option (List Text)) :=
  ended fun settings sources report _ => (settings.aliasStart.text?, sources.scripts, report.unusedDeclared)

/-- A script that imports a file of a package with a scope, beside another declared package. -/
def scopedTree : FileTree :=
  manifestTree "import '@s/kit/x'" "\x7b\"dependencies\": \x7b\"@s/kit\": \"1\", \"left\": \"1\"\x7d\x7d"

set_option maxRecDepth 100000 in
set_option synthInstance.maxSize 400 in
theorem sampleRun_scoped : sampleRun scopedTree [] declaredView =
    some (some (some ("@/" : Text), [⟨"src/main.ts", "import '@s/kit/x'"⟩], some [("left" : Text)])) := by
  simp only [sampleRun, run, ledgerOf, Discovery.scan, Discovery.select,
    Settings.ignoredSuffixes, unusedDependencies, Manifest.load, Manifest.read, Manifest.declared,
    Text.sortedSet, Text.mergeSort_eq_insertionSort]
  decide +kernel

set_option maxRecDepth 100000 in
theorem extract_scoped : Script.extract "src/main.ts" "import '@s/kit/x'" =
    .ok [⟨"src/main.ts", "@s/kit/x", .staticImport⟩] :=
  Outcome.toOption_eq_some.mp (by decide +kernel)

/-- A package with a scope is not reported when a file in it is imported; the other one is. -/
theorem imported_package_not_unused_scoped : ∃ settings report after,
    Settings.ofLayer [] = .ok settings ∧
    (run scopedTree sampleRoot settings).result = .ok (report, after) ∧
    Package.IsName "@s/kit" ∧ Package.IsWithin "@s/kit" "@s/kit/x" ∧
    report.unusedDeclared = some [("left" : Text)] ∧ Text.ofString "@s/kit" ∉ [("left" : Text)] := by
  obtain ⟨settings, sources, report, after, accepted, scanned, ran, seen⟩ := sampleRun_ended sampleRun_scoped
  simp only [Prod.mk.injEq] at seen
  obtain ⟨aliased, scripts, names⟩ := seen
  have listed : ⟨"src/main.ts", "import '@s/kit/x'"⟩ ∈ sources.scripts := by simp [scripts]
  have named : Package.IsName "@s/kit" := by decide
  have within : Package.IsWithin "@s/kit" "@s/kit/x" := .inr ⟨"x", by decide⟩
  have plain : Package.IsPlain "@s/kit" := ⟨by decide, by decide +kernel, by decide⟩
  have bare : (resolverOf (scopedTree.resolve sampleRoot) settings sources.files).project.IsBare
      (Resolution.forwardSlashes (Text.trim "@s/kit/x")) := by
    simp only [Project.isBare_iff, resolverOf, aliased]
    decide +kernel
  obtain ⟨-, textual, reports⟩ := imported_package_not_unused ran scanned listed extract_scoped
    (List.mem_singleton_self _) (.inl rfl) named within
  exact ⟨settings, report, after, accepted, ran, named, within, names,
    (reports _ names).1 ((textual isPlain_main plain).mpr ⟨by decide, bare⟩)⟩

/-- A script that imports a file of a declared package in a folder `src` of the package. -/
def innerSourceTree : FileTree :=
  manifestTree "import 'pkg/src/x'" "\x7b\"dependencies\": \x7b\"pkg\": \"1\"\x7d\x7d"

set_option maxRecDepth 100000 in
set_option synthInstance.maxSize 400 in
theorem sampleRun_innerSource : sampleRun innerSourceTree [] declaredView =
    some (some (some ("@/" : Text), [⟨"src/main.ts", "import 'pkg/src/x'"⟩], some [("pkg" : Text)])) := by
  simp only [sampleRun, run, ledgerOf, Discovery.scan, Discovery.select,
    Settings.ignoredSuffixes, unusedDependencies, Manifest.load, Manifest.read, Manifest.declared,
    Text.sortedSet, Text.mergeSort_eq_insertionSort]
  decide +kernel

set_option maxRecDepth 100000 in
theorem extract_innerSource : Script.extract "src/main.ts" "import 'pkg/src/x'" =
    .ok [⟨"src/main.ts", "pkg/src/x", .staticImport⟩] :=
  Outcome.toOption_eq_some.mp (by decide +kernel)

/-- A declared package can be reported although a scanned script imports a file in it. -/
theorem imported_package_unused : ∃ settings sources report after references,
    Settings.ofLayer [] = .ok settings ∧ settings.aliasStart.text? = some "@/" ∧
    (run innerSourceTree sampleRoot settings).result = .ok (report, after) ∧
    (Discovery.scan innerSourceTree (innerSourceTree.resolve sampleRoot) settings).result =
      .ok sources ∧
    ⟨"src/main.ts", "import 'pkg/src/x'"⟩ ∈ sources.scripts ∧
    Script.extract "src/main.ts" "import 'pkg/src/x'" = .ok references ∧
    ⟨"src/main.ts", "pkg/src/x", .staticImport⟩ ∈ references ∧
    Path.IsPlain "src/main.ts" ∧ Package.IsName "pkg" ∧ Package.IsPlain "pkg" ∧
    Package.IsWithin "pkg" "pkg/src/x" ∧ report.unusedDeclared = some [("pkg" : Text)] := by
  obtain ⟨settings, sources, report, after, accepted, scanned, ran, seen⟩ := sampleRun_ended sampleRun_innerSource
  simp only [Prod.mk.injEq] at seen
  obtain ⟨aliased, scripts, names⟩ := seen
  exact ⟨settings, sources, report, after, _, accepted, aliased, ran, scanned, by simp [scripts],
    extract_innerSource, List.mem_singleton_self _, isPlain_main, by decide,
    ⟨by decide, by decide +kernel, by decide⟩, .inr ⟨"src/x", by decide⟩, names⟩

end Analysis

end Deadwood
