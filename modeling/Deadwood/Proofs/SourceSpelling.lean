import Deadwood.Proofs.ImportedPackage
import Deadwood.Proofs.RelativeReference

/-!
# Spellings of source files

A script can refer to a file below `src` by the alias, by the path from the
root, or by a relative path from a file in that folder.  Three rules read the
three spellings, and all of them look for the same path, so the spellings mean
the same whatever stands behind their first slash.  The path of a named file is
itself such a spelling: written as a reference, it names the file again.
-/

namespace Deadwood

namespace Text

variable {start rest : Text}

/-- Behind a beginning that is not blank at either end, a text is trimmed at its end only. -/
theorem trim_append (nonempty : start ≠ []) (first : ∀ c ∈ start.head?, c.isBlank = false)
    (last : ∀ c ∈ start.getLast?, c.isBlank = false) :
    trim (start ++ rest) = start ++ trimEndBy Codepoint.isBlank rest := by
  have begins : ∀ c ∈ (start ++ rest).head?, c.isBlank = false := by
    rwa [List.head?_append_of_ne_nil _ nonempty]
  have kept : start.reverse.dropWhile Codepoint.isBlank = start.reverse := by
    have same := trimEndBy_eq_self last
    rwa [trimEndBy, List.reverse_eq_iff] at same
  rw [trim, trimStartBy_eq_self begins, trimEndBy, trimEndBy, List.reverse_append,
    List.dropWhile_append]
  split
  case isTrue blank =>
    rw [kept, List.isEmpty_iff.mp blank]
    simp
  case isFalse => simp

end Text

namespace Resolution

variable {start rest : Text}

/-- What the rules read of the rest of a text: without blanks at its end, with slashes in place of
backslashes. -/
def restRead (rest : Text) : Text := forwardSlashes (Text.trimEndBy Codepoint.isBlank rest)

theorem read_append (rest : Text) (nonempty : start ≠ [])
    (first : ∀ c ∈ start.head?, c.isBlank = false) (last : ∀ c ∈ start.getLast?, c.isBlank = false)
    (unescaped : Codepoint.char '\\' ∉ start) :
    forwardSlashes (Text.trim (start ++ rest)) = start ++ restRead rest := by
  rw [Text.trim_append nonempty first last, restRead]
  nth_rewrite 2 [← Project.forwardSlashes_eq_self unescaped]
  simp only [forwardSlashes, Text.replaceChar, List.map_append]

/-- What is read of the rest of a text looks like a web address only if the rest does. -/
theorem restRead_addressless (addressless : Text.contains (forwardSlashes rest) "://" = false) :
    Text.contains (restRead rest) "://" = false := by
  rw [Bool.eq_false_iff, ne_eq, Text.contains_iff] at addressless ⊢
  intro occurs
  have begins : restRead rest <+: forwardSlashes rest :=
    List.IsPrefix.map _ (List.rdropWhile_prefix Codepoint.isBlank rest)
  exact addressless (occurs.trans begins.isInfix)

end Resolution

namespace Path

variable {path text : Text}

/-- Normalizing looks only at the slashes at the front and at the segments that say something. -/
theorem normalize_congr (slashes : rootSlashes path = rootSlashes text)
    (steps : properSegments path = properSegments text) : normalize path = normalize text := by
  simp only [normalize, slashes, steps]

end Path

namespace Project

open Resolution

variable {project : Project} {request : Request} {reference : Reference}
variable {path sought target text importer sibling rest : Text} {site : Site}

/-! ## The path that a reference looks for -/

theorem resolve_of_sought (made : project.request? reference = some request)
    (seeks : project.sought? (project.ruleFor request) request = some sought) :
    ∃ written, project.resolve reference =
      dropPackages (project.finish (Path.normalize sought) written) reference.text := by
  obtain ⟨written, applied⟩ := applyRule_of_sought seeks
  exact ⟨written, by rw [resolve_of_request made, applied]⟩

/-- A path is the same file, or refused for the same reason, in whatever text it was found. -/
theorem finish_settled (project : Project) (target : Text) :
    (∃ file, ∀ written text, dropPackages (project.finish target written) text = .projectFile file) ∨
      ∃ reason, ∀ written text, ∃ refused,
        dropPackages (project.finish target written) text = .unresolved refused reason := by
  have settled : (∃ file, ∀ written, project.finish target written = .projectFile file) ∨
      ∃ reason, ∀ written, ∃ refused, project.finish target written = .unresolved refused reason := by
    by_cases inside : insideRoot target = true
    · by_cases recognized : hasRecognizedExtension target = true
      · exact .inl ⟨target, fun written => by simp [finish, inside, recognized]⟩
      · have probed : ∀ written, project.finish target written = probe target project.files := by
          intro written
          simp [finish, inside, recognized]
        cases found : probe target project.files with
        | projectFile file => exact .inl ⟨file, fun written => by rw [probed, found]⟩
        | package name => exact absurd found (probe_ne_package name)
        | unresolved refused reason =>
          exact .inr ⟨reason, fun written => ⟨refused, by rw [probed, found]⟩⟩
    · exact .inr ⟨outsideReason, fun written => ⟨written, by simp [finish, inside]⟩⟩
  rcases settled with ⟨file, named⟩ | ⟨reason, refused⟩
  · by_cases installed : Text.contains file "node_modules" = true
    · right
      exact ⟨packagesReason, fun written text => ⟨text, by simp [named, dropPackages, installed]⟩⟩
    · left
      exact ⟨file, fun written text => by simp [named, dropPackages, installed]⟩
  · right
    refine ⟨reason, fun written text => ?_⟩
    obtain ⟨unresolved, equal⟩ := refused written
    exact ⟨unresolved, by rw [equal, dropPackages]⟩

/-! ## Paths from the root -/

/-- A text that a script reads as a path from the root: it has a segment `src`, and no rule takes it
before. -/
structure IsSourcePath (project : Project) (text : Text) : Prop where
  unaliased : ¬ project.aliasStart <+: text
  undotted : text.head? ≠ some (Codepoint.char '.')
  unrooted : text.head? ≠ some Path.slash
  addressless : Text.contains text "://" = false
  source : ("src" : Text) ∈ Path.properSegments text

theorem IsSourcePath.ruleFor_eq (spelled : project.IsSourcePath request.text)
    (scripted : request.site ≠ .styleImport) : project.ruleFor request = .sourcePath := by
  have unaliased := Text.startsWith_eq_false.mpr spelled.unaliased
  have undotted : Text.startsWith request.text "." = false :=
    Text.startsWith_singleton_eq_false.mpr spelled.undotted
  have source : (Path.Parsed.ofText request.text).parts.contains ("src" : Text) = true := by
    rw [List.contains_iff_mem, mem_parts_src]
    exact spelled.source
  simp only [ruleFor, unaliased, undotted, scripted, spelled.addressless, source, decide_false,
    Bool.false_and, Bool.or_self, Bool.not_false, Bool.and_self, Bool.false_eq_true, if_false, if_true]

/-- Below an absolute root, such a text looks for itself. -/
theorem IsSourcePath.sought_eq (spelled : project.IsSourcePath request.text)
    (rooted : project.root.head? = some Path.slash) (scripted : request.site ≠ .styleImport) :
    project.sought? (project.ruleFor request) request = some request.text := by
  have outside : Text.startsWith request.text project.rootStart = false := by
    rw [Text.startsWith_eq_false]
    rintro ⟨rest, whole⟩
    apply spelled.unrooted
    rw [← whole, List.head?_append, head?_rootStart rooted]
    rfl
  have unslashed : Text.trimStartBy (· = Path.slash) request.text = request.text := by
    apply Text.trimStartBy_eq_self
    intro c head
    exact decide_eq_false fun equal => spelled.unrooted (equal ▸ head)
  rw [spelled.ruleFor_eq scripted]
  simp only [sought?, withoutRoot, outside, unslashed, Bool.false_eq_true, if_false]

/-! ## Three spellings of one path -/

/-- An absolute root, and the alias `@/` for the folder `src`. -/
structure IsStandard (project : Project) : Prop where
  rooted : project.root.head? = some Path.slash
  aliasStart : project.aliasStart = "@/"
  aliasTarget : project.aliasTarget = "src/"

/-- The three ways of writing a path below `src` in a script: by the alias and from the root in any
file, and relatively in a file of that folder. -/
def sourceSpellings (importer sibling rest : Text) (site : Site) : List Reference :=
  [⟨importer, "@/" ++ rest, site⟩, ⟨importer, "src/" ++ rest, site⟩, ⟨sibling, "./" ++ rest, site⟩]

/-- A text behind a plain beginning is requested as it stands, but for blanks and backslashes. -/
theorem request?_append {start : Text} (nonempty : start ≠ [])
    (first : ∀ c ∈ start.head?, c.isBlank = false) (last : ∀ c ∈ start.getLast?, c.isBlank = false)
    (unescaped : Codepoint.char '\\' ∉ start) (written : Text.hasSurrogate start = false)
    (encodable : Text.hasSurrogate rest = false) (origin : Text.hasSurrogate importer = false)
    (located : project.importerPath importer = some path) :
    project.request? ⟨importer, start ++ rest, site⟩ =
      some { importer := path, text := start ++ restRead rest, site } := by
  have read := read_append rest nonempty first last unescaped
  refine request?_eq_some.mpr ⟨?_, origin, ?_, path, located, by rw [read]⟩
  · simp only [Text.hasSurrogate, List.any_append] at written encodable ⊢
    simp [written, encodable]
  · rw [read]
    simp [nonempty]

/-- A rule decides the reference, and the path that it looks for is normalized to the target. -/
def Seeks (project : Project) (reference : Reference) (rule : Rule) (target : Text) : Prop :=
  ∃ request sought, project.request? reference = some request ∧ project.ruleFor request = rule ∧
    project.sought? rule request = some sought ∧ Path.normalize sought = target

theorem Seeks.rule_eq {rule : Rule} (seeks : project.Seeks reference rule target) :
    (project.explain reference.origin reference.text reference.site).1 = rule := by
  obtain ⟨request, sought, made, decided, -, -⟩ := seeks
  rw [explain_of_request made, decided]

theorem Seeks.resolve_eq {rule : Rule} (seeks : project.Seeks reference rule target) :
    ∃ written, project.resolve reference =
      dropPackages (project.finish target written) reference.text := by
  obtain ⟨request, sought, made, decided, looks, normal⟩ := seeks
  rw [← decided] at looks
  rw [← normal]
  exact resolve_of_sought made looks

/-- Behind the alias a path is looked for below the folder that the alias stands for. -/
theorem seeks_of_alias (site : Site) (standard : project.IsStandard)
    (encodable : Text.hasSurrogate rest = false) (importing : Text.hasSurrogate importer = false)
    (located : project.importerPath importer = some path) :
    project.Seeks ⟨importer, "@/" ++ rest, site⟩ .aliased (Path.normalize ("src/" ++ restRead rest)) := by
  have made : project.request? ⟨importer, "@/" ++ rest, site⟩ =
      some { importer := path, text := "@/" ++ restRead rest, site } :=
    request?_append (by decide) (by decide) (by decide) (by decide) (by decide) encodable importing
      located
  have begins : Text.startsWith ("@/" ++ restRead rest) project.aliasStart = true := by
    rw [Text.startsWith_iff, standard.aliasStart]
    exact List.prefix_append _ _
  refine ⟨_, _, made, ?_, rfl, ?_⟩
  · simp [ruleFor, begins]
  · simp only [standard.aliasStart, standard.aliasTarget, List.drop_left]

/-- A path below `src` that is written from the root is looked for as it is written. -/
theorem seeks_of_source (standard : project.IsStandard) (scripted : site ≠ .styleImport)
    (encodable : Text.hasSurrogate rest = false)
    (addressless : Text.contains (forwardSlashes rest) "://" = false)
    (importing : Text.hasSurrogate importer = false)
    (located : project.importerPath importer = some path) :
    project.Seeks ⟨importer, "src/" ++ rest, site⟩ .sourcePath
      (Path.normalize ("src/" ++ restRead rest)) := by
  have made : project.request? ⟨importer, "src/" ++ rest, site⟩ =
      some { importer := path, text := "src/" ++ restRead rest, site } :=
    request?_append (by decide) (by decide) (by decide) (by decide) (by decide) encodable importing
      located
  have spelled : project.IsSourcePath ("src/" ++ restRead rest) := by
    refine ⟨?_, by simp [Text.ofString], by simp [Text.ofString, Path.slash], ?_, ?_⟩
    · rw [standard.aliasStart]
      simp [Text.ofString]
    · exact restRead_addressless addressless
    · have parts := Path.properSegments_append "src" (restRead rest)
      have whole : Text.ofString "src/" ++ restRead rest =
        Text.ofString "src" ++ Path.slash :: restRead rest := rfl
      rw [whole, parts]
      exact List.mem_append_left _ (by decide)
  have decided : project.ruleFor { importer := path, text := "src/" ++ restRead rest, site } =
      .sourcePath := spelled.ruleFor_eq scripted
  refine ⟨_, _, made, decided, ?_, rfl⟩
  rw [← decided]
  exact spelled.sought_eq standard.rooted scripted

/-- In a file of the folder `src` a relative path is looked for below that folder. -/
theorem seeks_of_relative (site : Site) (standard : project.IsStandard)
    (encodable : Text.hasSurrogate rest = false) (importing : Text.hasSurrogate importer = false)
    (located : project.importerPath importer = some path) (inside : Path.folder path = "src") :
    project.Seeks ⟨importer, "./" ++ rest, site⟩ .relative (Path.normalize ("src/" ++ restRead rest)) := by
  have made : project.request? ⟨importer, "./" ++ rest, site⟩ =
      some { importer := path, text := "./" ++ restRead rest, site } :=
    request?_append (by decide) (by decide) (by decide) (by decide) (by decide) encodable importing
      located
  have unaliased : Text.startsWith ("./" ++ restRead rest) project.aliasStart = false := by
    rw [standard.aliasStart]
    rfl
  have tildeless : Text.startsWith ("./" ++ restRead rest) "~" = false := rfl
  have dotted : Text.startsWith ("./" ++ restRead rest) "." = true := rfl
  -- A segment `.` between the folder and the rest says nothing.
  have joined : Path.append "src" ("./" ++ restRead rest) =
      Text.ofString "src" ++ Path.slash :: (Path.here ++ Path.slash :: restRead rest) := rfl
  have whole : Text.ofString "src/" ++ restRead rest =
      Text.ofString "src" ++ Path.slash :: restRead rest := rfl
  refine ⟨_, _, made, ?_, rfl, ?_⟩
  · simp [ruleFor, unaliased, tildeless, dotted]
  · rw [inside]
    apply Path.normalize_congr
    · rfl
    · rw [joined, whole, Path.properSegments_append, Path.properSegments_append,
        Path.properSegments_append]
      rfl

/-- A path below `src` means the same in its three spellings, each of which another rule decides: the
same file, or nothing for the same reason.  It does not matter which file holds the first two, as long
as it lies below the root. -/
theorem source_spellings_agree (importer sibling rest : Text) (site : Site)
    (standard : project.IsStandard) (scripted : site ≠ .styleImport)
    (encodable : Text.hasSurrogate rest = false)
    (addressless : Text.contains (forwardSlashes rest) "://" = false)
    (importing : Text.hasSurrogate importer = false) (below : (project.importerPath importer).isSome)
    (beside : Text.hasSurrogate sibling = false) (located : project.importerPath sibling = some path)
    (inside : Path.folder path = "src") :
    (sourceSpellings importer sibling rest site).map (fun reference =>
        (project.explain reference.origin reference.text reference.site).1) =
      [.aliased, .sourcePath, .relative] ∧
    ((∃ file, ∀ reference ∈ sourceSpellings importer sibling rest site,
        project.resolve reference = .projectFile file) ∨
      ∃ reason, ∀ reference ∈ sourceSpellings importer sibling rest site,
        ∃ refused, project.resolve reference = .unresolved refused reason) := by
  obtain ⟨place, placed⟩ := Option.isSome_iff_exists.mp below
  have aliased := seeks_of_alias site standard encodable importing placed
  have source := seeks_of_source standard scripted encodable addressless importing placed
  have relative := seeks_of_relative site standard encodable beside located inside
  constructor
  · simp only [sourceSpellings, List.map_cons, List.map_nil, aliased.rule_eq, source.rule_eq,
      relative.rule_eq]
  · have finished : ∀ reference ∈ sourceSpellings importer sibling rest site, ∃ written,
        project.resolve reference =
          dropPackages (project.finish (Path.normalize ("src/" ++ restRead rest)) written)
            reference.text := by
      simp only [sourceSpellings, List.forall_mem_cons]
      exact ⟨aliased.resolve_eq, source.resolve_eq, relative.resolve_eq, by simp⟩
    rcases finish_settled project (Path.normalize ("src/" ++ restRead rest)) with
      ⟨file, named⟩ | ⟨reason, refused⟩
    · left
      refine ⟨file, fun reference member => ?_⟩
      obtain ⟨written, equal⟩ := finished reference member
      rw [equal, named]
    · right
      refine ⟨reason, fun reference member => ?_⟩
      obtain ⟨written, equal⟩ := finished reference member
      rw [equal]
      exact refused written reference.text

/-- Backslashes, a detour, a doubled slash and a blank at the end, in an importer outside `src`, an
absolute one beside the file, and a folder that is completed to its index file. -/
theorem source_spellings_agree_index :
    let project : Project := { root := "/work/app", files := ["src/a/index.ts"].map Text.ofString }
    let spellings := sourceSpellings "lib/x.ts" "/work/app/src/y.ts" "b\\..//a " .assetAttribute
    project.IsStandard ∧ project.importerPath "/work/app/src/y.ts" = some "src/y.ts" ∧
      (∀ reference ∈ spellings, project.resolve reference = .projectFile "src/a/index.ts") := by
  intro project spellings
  have standard : project.IsStandard := ⟨by decide, rfl, rfl⟩
  have located : project.importerPath "/work/app/src/y.ts" = some "src/y.ts" := by decide
  have agree := (source_spellings_agree "lib/x.ts" "/work/app/src/y.ts" "b\\..//a " .assetAttribute
    standard (by decide) (by decide) (by decide) (by decide) (by decide) (by decide) located
    (by decide)).2
  have first : project.resolve ⟨"lib/x.ts", "@/b\\..//a ", .assetAttribute⟩ =
      .projectFile "src/a/index.ts" := by decide
  refine ⟨standard, located, ?_⟩
  have member : ⟨"lib/x.ts", "@/b\\..//a ", .assetAttribute⟩ ∈ spellings := List.mem_cons_self
  rcases agree with ⟨file, named⟩ | ⟨reason, refused⟩
  · have same := named _ member
    rw [first] at same
    cases same
    exact named
  · obtain ⟨text, equal⟩ := refused _ member
    rw [first] at equal
    cases equal

end Project

/-! ## Texts that are read as they are written -/

namespace Text

variable {text other : Text}

/-- Every code point can be encoded, and none is a backslash. -/
def IsLiteral (text : Text) : Prop :=
  ∀ c ∈ text, c.isSurrogate = false ∧ c ≠ Codepoint.char '\\'

instance (text : Text) : Decidable text.IsLiteral :=
  inferInstanceAs (Decidable (∀ c ∈ text, _))

theorem isLiteral_iff : text.IsLiteral ↔ hasSurrogate text = false ∧ Codepoint.char '\\' ∉ text := by
  simp only [IsLiteral, hasSurrogate, List.any_eq_false, Bool.not_eq_true]
  constructor
  · intro literal
    exact ⟨fun c member => (literal c member).1, fun member => (literal _ member).2 rfl⟩
  · intro plain c member
    exact ⟨plain.1 c member, fun equal => plain.2 (equal ▸ member)⟩

namespace IsLiteral

theorem of_subset (literal : text.IsLiteral) (subset : other ⊆ text) : other.IsLiteral :=
  fun c member => literal c (subset member)

theorem append (literal : text.IsLiteral) (more : other.IsLiteral) : (text ++ other).IsLiteral := by
  intro c member
  rcases List.mem_append.mp member with front | back
  · exact literal c front
  · exact more c back

end IsLiteral

theorem isLiteral_forwardSlashes (encodable : hasSurrogate text = false) :
    (Resolution.forwardSlashes text).IsLiteral := by
  intro c member
  obtain ⟨d, inside, rfl⟩ := List.mem_map.mp member
  rw [hasSurrogate, List.any_eq_false] at encodable
  split
  case isTrue => decide
  case isFalse other => exact ⟨by simpa using encodable d inside, other⟩

end Text

namespace Path

variable {path text segment part : Text} {inside parts : List Text} {rooted : Bool}

/-- A stack holds nothing but what was on it and what was read. -/
theorem mem_step (member : segment ∈ step rooted inside part) : segment ∈ inside ∨ segment = part := by
  simp only [step] at member
  grind

theorem mem_foldl_step (member : segment ∈ parts.foldl (step rooted) inside) :
    segment ∈ inside ∨ segment ∈ parts := by
  induction parts generalizing inside with
  | nil => exact .inl member
  | cons part rest ih =>
    rcases ih member with before | later
    · rcases mem_step before with earlier | rfl
      · exact .inl earlier
      · exact .inr List.mem_cons_self
    · exact .inr (List.mem_cons_of_mem part later)

/-- Normalizing brings in no code point but slashes and the point of `.`. -/
theorem mem_normalize {c : Codepoint} (member : c ∈ normalize path) :
    c ∈ path ∨ c = slash ∨ c = Codepoint.char '.' := by
  have built : c ∈ List.replicate (rootSlashes path) slash ++ join (stack path).reverse →
      c ∈ path ∨ c = slash := by
    intro written
    rcases List.mem_append.mp written with front | behind
    · exact .inr (List.eq_of_mem_replicate front)
    · rcases mem_join behind with separator | ⟨part, listed, held⟩
      · exact .inr separator
      · rcases mem_foldl_step (List.mem_reverse.mp listed) with nothing | read
        · cases nothing
        · exact .inl (Text.mem_of_mem_splitOn (List.mem_of_mem_filter read) held)
  rw [normalize_eq_stack] at member
  split at member
  case h_1 => exact .inr (.inr (by simpa [here, Text.ofString] using member))
  case h_2 => exact (built member).imp_right .inl

theorem isLiteral_normalize (literal : path.IsLiteral) : (normalize path).IsLiteral := by
  intro c member
  rcases mem_normalize member with kept | rfl | rfl
  · exact literal c kept
  · decide
  · decide

theorem folder_prefix (path : Text) : folder path <+: path := by
  have head : (path.reverse.dropWhile (· ≠ slash)).reverse <+: path :=
    List.rdropWhile_prefix _ _
  simp only [folder]
  split
  · exact head
  · exact (List.rdropWhile_prefix _ _).trans head

theorem isLiteral_append (literal : path.IsLiteral) (more : text.IsLiteral) :
    (append path text).IsLiteral := by
  have separator : Text.IsLiteral [slash] := by decide
  simp only [append]
  split
  · exact more
  · split
    · exact literal.append more
    · exact literal.append (separator.append more)

/-- A canonical path with a recognized extension ends with the last code point of the extension. -/
theorem IsCanonical.getLast?_solid (canonical : IsCanonical path)
    (recognized : hasRecognizedExtension path = true) : ∀ c ∈ path.getLast?, c.isBlank = false := by
  have solid : ∀ extension ∈ recognizedExtensions, ∀ c ∈ extension, c.isBlank = false := by decide
  obtain ⟨folders, name, -, whole, named⟩ := canonical.exists_names
  rw [hasRecognizedExtension, whole, suffix_concat named] at recognized
  split at recognized
  case h_1 => cases recognized
  case h_2 point extension found =>
    have member : extension ∈ recognizedExtensions := by simpa using recognized
    simp only [suffixOfName] at found
    split at found
    case isFalse => cases found
    case isTrue long =>
      obtain ⟨-, rfl⟩ := List.cons.inj found
      have ends : (name.reverse.takeWhile (· ≠ Codepoint.char '.')).reverse <:+ name := by
        rw [← List.reverse_prefix, List.reverse_reverse]
        exact List.takeWhile_prefix _
      have nonempty := (Resolution.recognized_extension_plain _ member).1
      obtain ⟨front, joined⟩ := join_concat_eq_append folders name
      obtain ⟨stem, split⟩ := ends
      intro c last
      rw [whole, joined, ← split, ← List.append_assoc,
        List.getLast?_append_of_ne_nil _ nonempty] at last
      exact solid _ member c (List.mem_of_getLast? last)

end Path

namespace Project

open Resolution

variable {project : Project} {request : Request} {reference : Reference}
variable {path sought importer : Text} {site : Site}

/-! ## Named files as references -/

theorem withoutRoot_subset (path : Text) : project.withoutRoot path ⊆ path := by
  simp only [withoutRoot]
  split
  · exact List.drop_subset _ _
  · exact List.Subset.refl _

/-- The checks before the rules leave no code point that cannot be encoded, and no backslash. -/
theorem request_isLiteral (made : project.request? reference = some request) :
    request.text.IsLiteral ∧ request.importer.IsLiteral := by
  obtain ⟨written, origin, -, importer, located, rfl⟩ := request?_eq_some.mp made
  constructor
  · apply Text.isLiteral_forwardSlashes
    rw [Text.hasSurrogate, List.any_eq_false] at written ⊢
    intro c member
    exact written c (Text.mem_of_mem_trim member)
  · simp only [importerPath] at located
    split at located
    case isTrue => cases located
    case isFalse =>
      split at located
      case isFalse => cases located
      case isTrue =>
        cases located
        apply Path.isLiteral_normalize
        exact (Text.isLiteral_forwardSlashes origin).of_subset (withoutRoot_subset _)

/-- A rule puts the path that it looks for together from the request and the folder of the alias. -/
theorem sought_isLiteral {rule : Rule} (target : project.aliasTarget.IsLiteral)
    (written : request.text.IsLiteral) (importing : request.importer.IsLiteral)
    (seeks : project.sought? rule request = some sought) : sought.IsLiteral := by
  have dropped : ∀ count, Text.IsLiteral (request.text.drop count) := by
    intro count
    exact written.of_subset (List.drop_subset _ _)
  cases rule with
  | aliased =>
    cases seeks
    exact target.append (dropped _)
  | styleTilde =>
    simp only [sought?] at seeks
    split at seeks
    case isFalse => cases seeks
    case isTrue =>
      cases seeks
      exact target.append ((dropped 1).of_subset (List.drop_subset _ _))
  | relative =>
    cases seeks
    exact Path.isLiteral_append (importing.of_subset (Path.folder_prefix _).subset) written
  | sourcePath =>
    cases seeks
    exact written.of_subset
      (List.Subset.trans (List.dropWhile_suffix _).subset (withoutRoot_subset _))
  | _ => cases seeks

/-- A named file is a path that is read as it is written, unless it begins with a blank. -/
theorem isPlain_of_named (known : ∀ file ∈ project.files, Path.IsCanonical file)
    (target : project.aliasTarget.IsLiteral) (named : project.resolve reference = .projectFile path)
    (solid : ∀ c ∈ path.head?, c.isBlank = false) :
    Path.IsPlain path ∧ hasRecognizedExtension path = true := by
  obtain ⟨outside, sought, seeks, inside, reached⟩ := resolve_eq_projectFile.mp named
  obtain ⟨request, made, looks⟩ := Option.bind_eq_some_iff.mp seeks
  obtain ⟨written, importing⟩ := request_isLiteral made
  have literal := Path.isLiteral_normalize (sought_isLiteral target written importing looks)
  have found : Path.IsCanonical path ∧ hasRecognizedExtension path = true ∧ path.IsLiteral := by
    by_cases recognized : hasRecognizedExtension (Path.normalize sought) = true
    · rw [if_pos recognized] at reached
      subst reached
      rcases normalize_insideRoot inside with here | canonical
      · rw [here] at recognized
        exact absurd recognized (by decide)
      · exact ⟨canonical, recognized, literal⟩
    · rw [if_neg recognized] at reached
      obtain ⟨listed, suffix, member, completed⟩ := probe_eq_projectFile reached
      have suffixes : ∀ suffix ∈ probeSuffixes, suffix.IsLiteral := by decide
      refine ⟨known path listed, probe_recognized inside reached, ?_⟩
      rw [completed]
      exact (literal.of_subset (List.rdropWhile_prefix _ _).subset).append (suffixes suffix member)
  obtain ⟨canonical, recognized, clear⟩ := found
  obtain ⟨encodable, unescaped⟩ := Text.isLiteral_iff.mp clear
  have trimmed := Text.trim_eq_self solid (canonical.getLast?_solid recognized)
  exact ⟨⟨canonical, encodable, unescaped, trimmed, outside⟩, recognized⟩

/-- A plain path below a folder `src` names itself, in whatever script it is written. -/
theorem resolve_of_plain_source (rooted : project.root.head? = some Path.slash)
    (plain : Path.IsPlain path) (recognized : hasRecognizedExtension path = true)
    (source : ("src" : Text) ∈ Path.segments path) (undotted : path.head? ≠ some (Codepoint.char '.'))
    (unaliased : ¬ project.aliasStart <+: path) (importing : Text.hasSurrogate importer = false)
    (below : (project.importerPath importer).isSome) (scripted : site ≠ .styleImport) :
    project.resolve ⟨importer, path, site⟩ = .projectFile path := by
  obtain ⟨place, located⟩ := Option.isSome_iff_exists.mp below
  have read : forwardSlashes (Text.trim path) = path := by
    rw [plain.trimmed, forwardSlashes_eq_self plain.unescaped]
  have made : project.request? ⟨importer, path, site⟩ =
      some { importer := place, text := path, site } := by
    refine request?_eq_some.mpr ⟨plain.encodable, importing, ?_, place, located, by rw [read]⟩
    rw [read]
    exact plain.canonical.ne_nil
  have spelled : project.IsSourcePath path := by
    refine ⟨unaliased, undotted, plain.canonical.head?_ne_slash, ?_, Path.mem_properSegments_src source⟩
    have held : ∀ name ∈ Path.segments path, Path.IsSegment name := by
      intro name member
      exact ⟨(plain.canonical.named name member).nonempty, (plain.canonical.named name member).free⟩
    rw [← Path.join_segments path]
    exact Path.not_contains_scheme held
  rw [resolve_eq_projectFile]
  refine ⟨plain.outside, path, ?_, ?_, ?_⟩
  · rw [pathSought?, made]
    exact spelled.sought_eq rooted scripted
  · rw [plain.canonical.normalize_eq]
    exact plain.canonical.insideRoot
  · rw [plain.canonical.normalize_eq, if_pos recognized]

/-- Resolved paths are fixed points: a named file with a segment `src`, whatever reference it was named
by, is named by its own path in every script below the root. -/
theorem resolve_of_resolved (importer : Text) (site : Site)
    (rooted : project.root.head? = some Path.slash)
    (known : ∀ file ∈ project.files, Path.IsCanonical file)
    (target : Text.hasSurrogate project.aliasTarget = false ∧ Codepoint.char '\\' ∉ project.aliasTarget)
    (named : project.resolve reference = .projectFile path)
    (source : ("src" : Text) ∈ Path.segments path) (undotted : path.head? ≠ some (Codepoint.char '.'))
    (solid : ∀ c ∈ path.head?, c.isBlank = false) (unaliased : ¬ project.aliasStart <+: path)
    (importing : Text.hasSurrogate importer = false) (below : (project.importerPath importer).isSome)
    (scripted : site ≠ .styleImport) :
    project.resolve ⟨importer, path, site⟩ = .projectFile path := by
  obtain ⟨plain, recognized⟩ := isPlain_of_named known (Text.isLiteral_iff.mpr target) named solid
  exact resolve_of_plain_source rooted plain recognized source undotted unaliased importing below scripted

/-- A stylesheet names a folder by an alias of its own, the probe completes it to an index file with a
blank in its path, and an attribute in a script written with backslashes names that file again. -/
theorem resolve_of_resolved_index :
    let project : Project := {
      root := "/work/app", files := ["lib/src/a b/index.tsx"].map Text.ofString
      aliasStart := "#", aliasTarget := "lib/src/" }
    project.resolve ⟨"styles/main.css", "~#x/../a b/", .styleImport⟩ =
        .projectFile "lib/src/a b/index.tsx" ∧
      project.resolve ⟨"tests\\x.ts", "lib/src/a b/index.tsx", .assetAttribute⟩ =
        .projectFile "lib/src/a b/index.tsx" := by
  intro project
  have named : project.resolve ⟨"styles/main.css", "~#x/../a b/", .styleImport⟩ =
      .projectFile "lib/src/a b/index.tsx" := by decide +kernel
  exact ⟨named, resolve_of_resolved "tests\\x.ts" .assetAttribute (by decide) (by decide) (by decide)
    named (by decide) (by decide) (by decide) (by decide) (by decide) (by decide) (by decide)⟩

end Project

end Deadwood
