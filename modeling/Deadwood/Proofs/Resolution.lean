import Deadwood.Proofs.Path
import Deadwood.Resolution.Rules

/-!
# What a resolved reference names

Every rule that can name a file first builds a path from the root, and what
follows is the same for all of them: the path is normalized, kept only below
the root, and read as a file or completed by a suffix.  The module separates
the two halves, and shows that whatever hostile text a rule starts from, a
named file is canonical and has a recognized extension.
-/

namespace Deadwood

namespace Resolution

variable {path text : Text} {known : List Text}

/-! ## Recognized extensions -/

theorem recognized_extension_plain : ∀ extension ∈ recognizedExtensions,
    extension ≠ [] ∧ Codepoint.char '.' ∉ extension ∧ Path.slash ∉ extension := by
  decide

/-- A name stays a name when a point and an extension are written behind it. -/
theorem isName_append_extension {name extension : Text} (nonempty : name ≠ [])
    (free : Path.slash ∉ name) (recognized : extension ∈ recognizedExtensions) :
    Path.IsName (name ++ Codepoint.char '.' :: extension) := by
  obtain ⟨extended, pointless, slashless⟩ := recognized_extension_plain extension recognized
  obtain ⟨c, rest, rfl⟩ := List.exists_cons_of_ne_nil nonempty
  obtain ⟨d, more, rfl⟩ := List.exists_cons_of_ne_nil extended
  have length : 3 ≤ (c :: rest ++ Codepoint.char '.' :: d :: more).length := by
    simp only [List.length_append, List.length_cons]
    omega
  refine ⟨by simp, ?_, ?_, ?_⟩
  · intro equal
    rw [equal] at length
    exact absurd length (by decide)
  · intro equal
    rw [equal] at length
    exact absurd length (by decide)
  · have point : Path.slash ≠ Codepoint.char '.' := by decide
    simp only [List.mem_append, List.mem_cons, not_or] at free slashless ⊢
    exact ⟨free, point, slashless⟩

theorem hasRecognizedExtension_of_names {names : List Text} {stem extension : Text}
    (folders : ∀ name ∈ names, Path.IsName name) (stemmed : stem ≠ []) (free : Path.slash ∉ stem)
    (recognized : extension ∈ recognizedExtensions) :
    hasRecognizedExtension (Path.join (names ++ [stem ++ Codepoint.char '.' :: extension])) =
      true := by
  have named : ∀ part ∈ names ++ [stem ++ Codepoint.char '.' :: extension], Path.IsName part := by
    intro part member
    rcases List.mem_append.mp member with front | last
    · exact folders part front
    · rw [List.mem_singleton.mp last]
      exact isName_append_extension stemmed free recognized
  obtain ⟨nonempty, pointless, -⟩ := recognized_extension_plain extension recognized
  rw [hasRecognizedExtension, Path.suffix_concat named,
    Path.suffixOfName_append stemmed nonempty pointless]
  simpa using recognized

/-- A probe suffix ends in a recognized extension, behind a point and perhaps behind a whole name. -/
theorem probeSuffix_shape : ∀ suffix ∈ probeSuffixes, ∃ extension ∈ recognizedExtensions,
    (∃ middle, Path.slash ∉ middle ∧ suffix = middle ++ Codepoint.char '.' :: extension) ∨
      ∃ middle, middle ≠ [] ∧ Path.slash ∉ middle ∧
        suffix = Path.slash :: (middle ++ Codepoint.char '.' :: extension) := by
  intro suffix member
  simp only [probeSuffixes, List.map_cons, List.map_nil, List.mem_cons, List.not_mem_nil,
    or_false] at member
  rcases member with rfl | rfl | rfl | rfl | rfl | rfl
  · exact ⟨"ts", by decide, .inl ⟨[], by decide, rfl⟩⟩
  · exact ⟨"tsx", by decide, .inl ⟨[], by decide, rfl⟩⟩
  · exact ⟨"ts", by decide, .inr ⟨"index", by decide, by decide, rfl⟩⟩
  · exact ⟨"tsx", by decide, .inr ⟨"index", by decide, by decide, rfl⟩⟩
  · exact ⟨"ts", by decide, .inl ⟨".d", by decide, rfl⟩⟩
  · exact ⟨"ts", by decide, .inr ⟨"index.d", by decide, by decide, rfl⟩⟩

theorem hasRecognizedExtension_here_append : ∀ suffix ∈ probeSuffixes,
    hasRecognizedExtension (Path.here ++ suffix) = true := by
  decide

/-- Behind a canonical path every probe suffix ends in a recognized extension. -/
theorem hasRecognizedExtension_append_suffix (canonical : Path.IsCanonical path)
    {suffix : Text} (member : suffix ∈ probeSuffixes) :
    hasRecognizedExtension (path ++ suffix) = true := by
  obtain ⟨names, last, -, whole, named⟩ := canonical.exists_names
  have lastName := named last (by simp)
  obtain ⟨extension, recognized, ⟨middle, free, rfl⟩ | ⟨middle, nonempty, free, rfl⟩⟩ :=
    probeSuffix_shape suffix member
  · -- The suffix lengthens the last name.
    rw [whole, Path.join_concat_append, ← List.append_assoc]
    apply hasRecognizedExtension_of_names
    · exact fun name listed => named name (List.mem_append_left _ listed)
    · simp [lastName.nonempty]
    · simp [lastName.free, free]
    · exact recognized
  · -- The suffix adds a name of its own.
    rw [whole, ← Path.join_concat _ (by simp)]
    exact hasRecognizedExtension_of_names named nonempty free recognized

/-! ## Probing and the root -/

theorem probe_eq_projectFile (found : probe path known = .projectFile text) :
    text ∈ known ∧
      ∃ suffix ∈ probeSuffixes, text = Text.trimEndBy (· = Path.slash) path ++ suffix := by
  simp only [probe] at found
  split at found
  case h_2 => cases found
  case h_1 candidate hit =>
    cases found
    have listed := List.mem_of_find?_eq_some hit
    obtain ⟨suffix, member, equal⟩ := List.mem_map.mp listed
    exact ⟨by simpa using List.find?_some hit, suffix, member, equal.symm⟩

theorem trimEndBy_slash_eq_self (unclosed : path.getLast? ≠ some Path.slash) :
    Text.trimEndBy (· = Path.slash) path = path := by
  rw [Text.trimEndBy_eq_rdropWhile, List.rdropWhile_eq_self_iff]
  intro nonempty last
  rw [List.getLast?_eq_some_getLast nonempty] at unclosed
  exact unclosed (congrArg some (of_decide_eq_true last))

theorem probe_ne_package (name : Text) : probe path known ≠ .package name := by
  simp only [probe]
  split <;> simp

theorem insideRoot_iff : insideRoot path = true ↔
    path ≠ Path.up ∧ ¬ Path.up ++ [Path.slash] <+: path ∧ path.head? ≠ some Path.slash := by
  have climbs : Text.startsWith path "../" = true ↔ Path.up ++ [Path.slash] <+: path :=
    Text.startsWith_iff
  have rooted : Text.startsWith path "/" = true ↔ path.head? = some Path.slash :=
    Text.startsWith_singleton
  simp only [insideRoot, Bool.and_eq_true, bne_iff_ne, Bool.not_eq_eq_eq_not, Bool.not_true,
    Bool.eq_false_iff, ne_eq, climbs, rooted, and_assoc]

/-- Below the root a normalized path is the root itself or canonical. -/
theorem normalize_insideRoot (inside : insideRoot (Path.normalize path) = true) :
    Path.normalize path = Path.here ∨ Path.IsCanonical (Path.normalize path) := by
  obtain ⟨notUp, notClimbing, relative⟩ := insideRoot_iff.mp inside
  rcases Path.normalize_cases path with rooted | here | canonical | climbs | climbs
  · exact absurd rooted relative
  · exact .inl here
  · exact .inr canonical
  · exact absurd climbs notUp
  · exact absurd climbs notClimbing

end Resolution

namespace Project

open Resolution

variable {project : Project} {request : Request} {reference : Reference} {path : Text}

/-! ## Requests and the paths they look for -/

/-- The request that a reference makes of the rules, if it passes the checks made before them. -/
def request? (project : Project) (reference : Reference) : Option Request :=
  if Text.hasSurrogate reference.text || Text.hasSurrogate reference.origin then none
  else
    let text := forwardSlashes (Text.trim reference.text)
    if text = [] then none
    else (project.importerPath reference.origin).map fun importer =>
      { importer, text, site := reference.site }

/-- The path from the root that a rule looks for, as it is before it is normalized. -/
def sought? (project : Project) (rule : Rule) (request : Request) : Option Text :=
  let unaliased (text : Text) := project.aliasTarget ++ text.drop project.aliasStart.length
  match rule with
  | .aliased => some (unaliased request.text)
  | .styleTilde =>
    if Text.startsWith request.text ("~" ++ project.aliasStart) then
      some (unaliased (request.text.drop 1))
    else none
  | .relative => some (Path.append (Path.folder request.importer) request.text)
  | .sourcePath => some (Text.trimStartBy (· = Path.slash) (project.withoutRoot request.text))
  | _ => none

/-- The path from the root that a reference looks for. -/
def pathSought? (project : Project) (reference : Reference) : Option Text :=
  (project.request? reference).bind fun request => project.sought? (project.ruleFor request) request

theorem request?_eq_some : project.request? reference = some request ↔
    Text.hasSurrogate reference.text = false ∧ Text.hasSurrogate reference.origin = false ∧
      forwardSlashes (Text.trim reference.text) ≠ [] ∧
      ∃ importer, project.importerPath reference.origin = some importer ∧
        { importer, text := forwardSlashes (Text.trim reference.text), site := reference.site } =
          request := by
  simp only [request?]
  by_cases encoded : (Text.hasSurrogate reference.text || Text.hasSurrogate reference.origin) = true
  · rw [if_pos encoded]
    rcases Bool.or_eq_true_iff.mp encoded with written | origin
    · simp [written]
    · simp [origin]
  · rw [if_neg encoded]
    simp only [Bool.or_eq_true, not_or, Bool.not_eq_true] at encoded
    by_cases empty : forwardSlashes (Text.trim reference.text) = []
    · simp [empty]
    · rw [if_neg empty, Option.map_eq_some_iff]
      simp [encoded, empty]

theorem resolve_of_request (made : project.request? reference = some request) :
    project.resolve reference =
      dropPackages (project.applyRule (project.ruleFor request) request) reference.text := by
  obtain ⟨written, origin, nonempty, importer, below, rfl⟩ := request?_eq_some.mp made
  simp [resolve, explain, written, origin, nonempty, below]

theorem resolve_of_no_request (refused : project.request? reference = none) :
    ∃ text reason, project.resolve reference = .unresolved text reason := by
  simp only [request?] at refused
  simp only [resolve, explain]
  split
  case isTrue => exact ⟨_, _, rfl⟩
  case isFalse encoded =>
    rw [if_neg encoded] at refused
    split
    case isTrue => exact ⟨_, _, rfl⟩
    case isFalse nonempty =>
      rw [if_neg nonempty, Option.map_eq_none_iff] at refused
      rw [refused]
      exact ⟨_, _, rfl⟩

/-- What is said of a reference that the checks before the rules refuse. -/
def refusal (reference : Reference) : Rule × Option Text × Resolution :=
  if Text.hasSurrogate reference.text || Text.hasSurrogate reference.origin then
    (.encoding, none, .unresolved reference.text encodingReason)
  else if forwardSlashes (Text.trim reference.text) = [] then
    (.empty, none, .unresolved reference.text emptyReason)
  else (.importer, none, .unresolved reference.text outsideReason)

theorem explain_of_request (made : project.request? reference = some request) :
    project.explain reference.origin reference.text reference.site =
      (project.ruleFor request, some request.importer,
        dropPackages (project.applyRule (project.ruleFor request) request) reference.text) := by
  obtain ⟨written, origin, nonempty, importer, below, rfl⟩ := request?_eq_some.mp made
  simp [explain, written, origin, nonempty, below]

theorem explain_of_no_request (refused : project.request? reference = none) :
    project.explain reference.origin reference.text reference.site = refusal reference := by
  simp only [request?] at refused
  simp only [explain, refusal]
  split
  case isTrue => rfl
  case isFalse encoded =>
    rw [if_neg encoded] at refused
    split
    case isTrue => rfl
    case isFalse nonempty =>
      rw [if_neg nonempty, Option.map_eq_none_iff] at refused
      rw [refused]

/-- A rule that looks for a path goes on the same way, whichever rule it is. -/
theorem applyRule_of_sought {rule : Rule} {sought : Text}
    (seeks : project.sought? rule request = some sought) :
    ∃ written, project.applyRule rule request = project.finish (Path.normalize sought) written := by
  cases rule with
  | aliased =>
    cases seeks
    exact ⟨_, rfl⟩
  | styleTilde =>
    simp only [sought?, applyRule] at seeks ⊢
    split at seeks
    case isFalse => cases seeks
    case isTrue begins =>
      cases seeks
      rw [if_pos begins]
      exact ⟨_, rfl⟩
  | relative =>
    cases seeks
    exact ⟨_, rfl⟩
  | sourcePath =>
    cases seeks
    exact ⟨_, rfl⟩
  | _ => cases seeks

theorem applyRule_of_no_path {rule : Rule} (seeks : project.sought? rule request = none) :
    project.applyRule rule request = .package request.text ∨
      ∃ text reason, project.applyRule rule request = .unresolved text reason := by
  cases rule with
  | aliased => cases seeks
  | styleTilde =>
    simp only [sought?, applyRule] at seeks ⊢
    split at seeks
    case isTrue => cases seeks
    case isFalse begins =>
      rw [if_neg begins]
      exact .inr ⟨_, _, rfl⟩
  | relative => cases seeks
  | sourcePath => cases seeks
  | dependency => exact .inl rfl
  | _ => exact .inr ⟨_, _, rfl⟩

theorem dropPackages_eq_projectFile {resolution : Resolution} {written : Text} :
    dropPackages resolution written = .projectFile path ↔
      resolution = .projectFile path ∧ Text.contains path "node_modules" = false := by
  cases resolution with
  | projectFile other =>
    simp only [dropPackages]
    split <;> grind
  | package name =>
    simp only [dropPackages]
    split <;> simp
  | unresolved text reason => simp [dropPackages]

theorem dropPackages_eq_package {resolution : Resolution} {written name : Text} :
    dropPackages resolution written = .package name ↔
      resolution = .package name ∧ Text.contains name "node_modules" = false := by
  cases resolution with
  | projectFile other =>
    simp only [dropPackages]
    split <;> simp
  | package other =>
    simp only [dropPackages]
    split <;> grind
  | unresolved text reason => simp [dropPackages]

theorem finish_eq_projectFile {target written : Text} :
    project.finish target written = .projectFile path ↔ insideRoot target = true ∧
      if hasRecognizedExtension target then path = target
      else probe target project.files = .projectFile path := by
  simp only [finish]
  by_cases inside : insideRoot target = true <;>
    by_cases recognized : hasRecognizedExtension target = true <;>
    simp [inside, recognized, eq_comm]

theorem finish_ne_package {target written : Text} (name : Text) :
    project.finish target written ≠ .package name := by
  simp only [finish]
  split
  · simp
  · split
    · simp
    · exact probe_ne_package name

/-! ## Named files and packages -/

theorem resolve_eq_projectFile : project.resolve reference = .projectFile path ↔
    Text.contains path "node_modules" = false ∧
      ∃ sought, project.pathSought? reference = some sought ∧
        insideRoot (Path.normalize sought) = true ∧
        if hasRecognizedExtension (Path.normalize sought) then path = Path.normalize sought
        else probe (Path.normalize sought) project.files = .projectFile path := by
  cases made : project.request? reference with
  | none =>
    obtain ⟨text, reason, equal⟩ := resolve_of_no_request made
    simp [equal, pathSought?, made]
  | some request =>
    rw [resolve_of_request made, dropPackages_eq_projectFile, and_comm]
    cases seeks : project.sought? (project.ruleFor request) request with
    | none =>
      have other : project.applyRule (project.ruleFor request) request ≠ .projectFile path := by
        rcases applyRule_of_no_path seeks with package | ⟨text, reason, unresolved⟩
        · simp [package]
        · simp [unresolved]
      simp [other, pathSought?, made, seeks]
    | some sought =>
      obtain ⟨written, equal⟩ := applyRule_of_sought seeks
      simp [equal, pathSought?, made, seeks, finish_eq_projectFile]

/-- Only a request is taken for a package, under the text it came with. -/
theorem resolve_eq_package {name : Text} (named : project.resolve reference = .package name) :
    Text.contains name "node_modules" = false ∧
      ∃ request, project.request? reference = some request ∧ name = request.text := by
  cases made : project.request? reference with
  | none =>
    obtain ⟨text, reason, equal⟩ := resolve_of_no_request made
    rw [equal] at named
    cases named
  | some request =>
    rw [resolve_of_request made, dropPackages_eq_package] at named
    refine ⟨named.2, request, rfl, ?_⟩
    cases seeks : project.sought? (project.ruleFor request) request with
    | some sought =>
      obtain ⟨written, equal⟩ := applyRule_of_sought seeks
      exact absurd (equal ▸ named.1) (finish_ne_package name)
    | none =>
      rcases applyRule_of_no_path seeks with package | ⟨text, reason, unresolved⟩
      · simpa [package, eq_comm] using named.1
      · simp [unresolved] at named

theorem isBlank_forwardSlash {c : Codepoint} (solid : c.isBlank = false) :
    (if c = Codepoint.char '\\' then Path.slash else c).isBlank = false := by
  split
  · decide
  · exact solid

/-- The text of a request is not empty, and neither end of it is blank. -/
theorem request_text (made : project.request? reference = some request) :
    request.text ≠ [] ∧ Text.trim request.text = request.text := by
  obtain ⟨-, -, nonempty, importer, -, rfl⟩ := request?_eq_some.mp made
  refine ⟨nonempty, Text.trim_eq_self ?_ ?_⟩
  · intro c head
    rw [forwardSlashes, Text.replaceChar, List.head?_map] at head
    obtain ⟨d, first, rfl⟩ := Option.map_eq_some_iff.mp head
    exact isBlank_forwardSlash (Text.head?_trim first)
  · intro c last
    rw [forwardSlashes, Text.replaceChar, List.getLast?_map] at last
    obtain ⟨d, final, rfl⟩ := Option.map_eq_some_iff.mp last
    exact isBlank_forwardSlash (Text.getLast?_trim final)

/-- A path that has no recognized extension itself gets one from its probe suffix. -/
theorem probe_recognized {sought : Text} (inside : insideRoot (Path.normalize sought) = true)
    (found : probe (Path.normalize sought) project.files = .projectFile path) :
    hasRecognizedExtension path = true := by
  obtain ⟨-, suffix, member, rfl⟩ := probe_eq_projectFile found
  rcases normalize_insideRoot inside with here | canonical
  · rw [here, trimEndBy_slash_eq_self (by decide)]
    exact hasRecognizedExtension_here_append suffix member
  · rw [trimEndBy_slash_eq_self canonical.getLast?_ne_slash]
    exact hasRecognizedExtension_append_suffix canonical member

/-- Among canonical known files, a reference only ever names a canonical path with a recognized
extension outside the installed packages: a known file found by a suffix, or the very path it looks
for, whatever files are known.  A package has a trimmed, nonempty name. -/
theorem resolve_names_canonical (project : Project)
    (known : ∀ file ∈ project.files, Path.IsCanonical file) (reference : Reference) :
    (∀ path, project.resolve reference = .projectFile path →
      path ≠ [] ∧ path.head? ≠ some Path.slash ∧
      (∀ segment ∈ Path.segments path, segment ≠ [] ∧ segment ≠ Path.here ∧ segment ≠ Path.up) ∧
      hasRecognizedExtension path = true ∧ Text.contains path "node_modules" = false ∧
      ∃ sought, project.pathSought? reference = some sought ∧
        ((path ∈ project.files ∧ ∃ suffix ∈ probeSuffixes,
            path = Text.trimEndBy (· = Path.slash) (Path.normalize sought) ++ suffix) ∨
          (path = Path.normalize sought ∧
            ∀ files, { project with files }.resolve reference = .projectFile path))) ∧
    ∀ name, project.resolve reference = .package name →
      name ≠ [] ∧ Text.trim name = name ∧ Text.contains name "node_modules" = false := by
  constructor
  · intro path named
    obtain ⟨outside, sought, seeks, inside, reached⟩ := resolve_eq_projectFile.mp named
    by_cases recognized : hasRecognizedExtension (Path.normalize sought) = true
    · rw [if_pos recognized] at reached
      subst reached
      -- The root itself has no extension, so the path below the root is canonical.
      have canonical : Path.IsCanonical (Path.normalize sought) := by
        rcases normalize_insideRoot inside with here | canonical
        · rw [here] at recognized
          exact absurd recognized (by decide)
        · exact canonical
      refine ⟨canonical.ne_nil, canonical.head?_ne_slash, canonical, recognized, outside, sought,
        seeks, .inr ⟨rfl, ?_⟩⟩
      intro files
      refine resolve_eq_projectFile.mpr ⟨outside, sought, seeks, inside, ?_⟩
      rw [if_pos recognized]
    · rw [if_neg recognized] at reached
      obtain ⟨listed, completed⟩ := probe_eq_projectFile reached
      have canonical := known path listed
      exact ⟨canonical.ne_nil, canonical.head?_ne_slash, canonical, probe_recognized inside reached,
        outside, sought, seeks, .inl ⟨listed, completed⟩⟩
  · intro name named
    obtain ⟨outside, request, made, rfl⟩ := resolve_eq_package named
    exact ⟨(request_text made).1, (request_text made).2, outside⟩

/-- A folder, written with a backslash and a closing slash, is completed to its index file. -/
theorem resolve_names_canonical_index :
    let project : Project := { root := "/p", files := ["src/a/index.ts"].map Text.ofString }
    let reference : Reference := ⟨"src/i.ts", " .\\a/", .staticImport⟩
    (∀ file ∈ project.files, Path.IsCanonical file) ∧
      project.resolve reference = .projectFile "src/a/index.ts" ∧
      hasRecognizedExtension "src/a/index.ts" = true := by
  intro project reference
  have known : ∀ file ∈ project.files, Path.IsCanonical file := by decide +kernel
  have named : project.resolve reference = .projectFile "src/a/index.ts" := by decide +kernel
  exact ⟨known, named, ((resolve_names_canonical project known reference).1 _ named).2.2.2.1⟩

end Project

end Deadwood
