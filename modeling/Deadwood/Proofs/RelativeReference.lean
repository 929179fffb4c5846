import Deadwood.Proofs.SegmentStack

/-!
# Relative references

Resolution does not walk through folders; it joins texts and normalizes what
comes out.  As long as the walk that a relative reference describes stays below
the root, the reference means what the end of the walk means.  A reference
whose walk leaves the root is unresolved even if it comes back, and one that
leads to the root itself does not find the index file there.
-/

namespace Deadwood

/-- The text of a reference as the rules read it: trimmed, with slashes in place of backslashes. -/
def Reference.spelling (reference : Reference) : Text :=
  Resolution.forwardSlashes (Text.trim reference.text)

namespace Project

open Resolution

variable {project : Project} {reference : Reference} {names : List Text} {target file written : Text}

/-! ## The file that a path stands for -/

/-- The file that a path below the root stands for. -/
inductive StandsFor (project : Project) (target : Text) : Text → Prop where
  /-- A path with a recognized extension is the file itself, known or not. -/
  | itself (recognized : hasRecognizedExtension target = true) : StandsFor project target target
  /-- Any other path is completed by the first suffix with which it is a known file. -/
  | completed {before after : List Text} {suffix : Text}
      (bare : hasRecognizedExtension target = false)
      (ordered : probeSuffixes = before ++ suffix :: after)
      (passed : ∀ earlier ∈ before, target ++ earlier ∉ project.files)
      (known : target ++ suffix ∈ project.files) : StandsFor project target (target ++ suffix)

theorem finish_of_standsFor (inside : insideRoot target = true)
    (unclosed : target.getLast? ≠ some Path.slash) (stands : StandsFor project target file) :
    project.finish target written = .projectFile file := by
  rw [finish_eq_projectFile]
  constructor
  · exact inside
  · cases stands with
    | itself recognized => rw [if_pos recognized]
    | @completed before after suffix bare ordered passed known =>
      have missed : (before.map (target ++ ·)).find? project.files.contains = none := by
        simpa using passed
      rw [if_neg (by simp [bare]), probe, trimEndBy_slash_eq_self unclosed, ordered, List.map_append,
        List.find?_append, missed, List.map_cons]
      simp [known]

theorem finish_of_nothing (inside : insideRoot target = true)
    (unclosed : target.getLast? ≠ some Path.slash) (nothing : ∀ file, ¬ StandsFor project target file) :
    project.finish target written = .unresolved target notFoundReason := by
  have bare : hasRecognizedExtension target = false := by
    rw [Bool.eq_false_iff]
    intro recognized
    exact nothing target (.itself recognized)
  have missed : (probeSuffixes.map (target ++ ·)).find? project.files.contains = none := by
    cases hit : (probeSuffixes.map (target ++ ·)).find? project.files.contains with
    | none => rfl
    | some candidate =>
      obtain ⟨known, earlier, later, split, passed⟩ := List.find?_eq_some_iff_append.mp hit
      obtain ⟨before, rest, ordered, rfl, others⟩ := List.map_eq_append_iff.mp split
      obtain ⟨suffix, after, rfl, rfl, -⟩ := List.map_eq_cons_iff.mp others
      have first : ∀ other ∈ before, target ++ other ∉ project.files := by simpa using passed
      exact absurd (.completed bare ordered first (by simpa using known)) (nothing (target ++ suffix))
  simp only [finish, inside, bare, probe, trimEndBy_slash_eq_self unclosed, missed, Bool.not_true,
    Bool.false_eq_true, if_false]

/-! ## Relative references -/

/-- A reference of a file, given by its canonical path from an absolute root, that the rule for relative
references decides. -/
structure IsRelative (project : Project) (reference : Reference) : Prop where
  rooted : project.root.head? = some Path.slash
  canonical : Path.IsCanonical reference.origin
  unescaped : Codepoint.char '\\' ∉ reference.origin
  decided : (project.explain reference.origin reference.text reference.site).1 = .relative
  unrooted : reference.spelling.head? ≠ some Path.slash

/-- The folder that the walk of a reference reaches from the folder of its importer. -/
def reached? (reference : Reference) : Option (List Text) :=
  Path.reach? (Path.folderNames reference.origin) reference.spelling

namespace IsRelative

theorem resolve_eq (relative : project.IsRelative reference) : project.resolve reference =
    dropPackages (project.finish
      (Path.normalize (Path.append (Path.join (Path.folderNames reference.origin)) reference.spelling))
      reference.spelling) reference.text := by
  have importer :=
    importerPath_eq_some (head?_rootStart relative.rooted) relative.canonical relative.unescaped
  have decided := relative.decided
  simp only [explain, importer] at decided
  split at decided
  case isTrue => cases decided
  case isFalse encodable =>
    split at decided
    case isTrue => cases decided
    case isFalse nonempty =>
      rw [Bool.or_eq_true, not_or, Bool.not_eq_true, Bool.not_eq_true] at encodable
      have made : project.request? reference =
          some { importer := reference.origin, text := reference.spelling, site := reference.site } :=
        request?_eq_some.mpr ⟨encodable.1, encodable.2, nonempty, reference.origin, importer, rfl⟩
      have rule : project.ruleFor
          { importer := reference.origin, text := reference.spelling, site := reference.site } =
            .relative := decided
      rw [resolve_of_request made, rule, applyRule, relative.canonical.folder_eq.1]

/-- A relative reference whose walk gets through means what the end of the walk means. -/
theorem resolve_of_reached (relative : project.IsRelative reference)
    (reached : reached? reference = some names) :
    (∀ name ∈ names, Path.IsName name) ∧ project.resolve reference =
      dropPackages (project.finish (Path.Parsed.mk 0 names).toText reference.spelling) reference.text := by
  obtain ⟨named, normalized⟩ :=
    Path.normalize_of_reach relative.canonical.folder_eq.2 relative.unrooted reached
  rw [relative.resolve_eq, normalized]
  exact ⟨named, rfl⟩

/-- A relative reference whose walk leaves the root is unresolved for that reason. -/
theorem resolve_of_left (relative : project.IsRelative reference) (left : reached? reference = none) :
    project.resolve reference = .unresolved reference.spelling outsideReason := by
  have outside :=
    Path.not_insideRoot_of_reach relative.canonical.folder_eq.2 relative.unrooted left
  rw [relative.resolve_eq, finish, outside]
  rfl

end IsRelative

/-- A relative reference means the file that the end of its walk stands for, unless that lies among the
installed packages.  If the walk ends at no file, or leaves the root, the reference is unresolved. -/
theorem resolve_follows_walk (relative : project.IsRelative reference) :
    (∀ names, reached? reference = some names →
      (∀ file, project.StandsFor (Path.Parsed.mk 0 names).toText file →
        project.resolve reference = if Text.contains file "node_modules" then
          .unresolved reference.text packagesReason else .projectFile file) ∧
      ((∀ file, ¬ project.StandsFor (Path.Parsed.mk 0 names).toText file) →
        project.resolve reference = .unresolved (Path.Parsed.mk 0 names).toText notFoundReason)) ∧
    (reached? reference = none →
      project.resolve reference = .unresolved reference.spelling outsideReason) := by
  constructor
  · intro names reached
    obtain ⟨named, resolved⟩ := relative.resolve_of_reached reached
    obtain ⟨inside, unclosed⟩ := Path.toText_inside named
    constructor
    · intro file stands
      rw [resolved, finish_of_standsFor inside unclosed stands, dropPackages]
    · intro nothing
      rw [resolved, finish_of_nothing inside unclosed nothing, dropPackages]
  · exact relative.resolve_of_left

/-- A walk up and down again, past a name of three points and a folder that is left at once, ends at a
folder with an index file. -/
theorem resolve_follows_walk_index :
    let project : Project := { root := "/work/app", files := ["src/.../a/index.tsx"].map Text.ofString }
    let reference : Reference := ⟨"src/b/c.ts", " ..\\.//b/../.../a/ ", .staticImport⟩
    project.IsRelative reference ∧
      reached? reference = some (["src", "...", "a"].map Text.ofString) ∧
      project.resolve reference = .projectFile "src/.../a/index.tsx" := by
  intro project reference
  have relative : project.IsRelative reference :=
    ⟨by decide, by decide, by decide, by decide, by decide⟩
  have reached : reached? reference = some (["src", "...", "a"].map Text.ofString) := by decide
  have ordered : probeSuffixes = [".ts", ".tsx", "/index.ts"].map Text.ofString ++
      Text.ofString "/index.tsx" :: [".d.ts", "/index.d.ts"].map Text.ofString := rfl
  have stands : project.StandsFor
      (Path.Parsed.mk 0 (["src", "...", "a"].map Text.ofString)).toText "src/.../a/index.tsx" :=
    .completed (by decide) ordered (by decide) (by decide)
  have resolved := ((resolve_follows_walk relative).1 _ reached).1 _ stands
  exact ⟨relative, reached, resolved⟩

/-! ## References that leave the root and come back -/

/-- The absolute path of what a reference leads to, normalized as a whole. -/
def absoluteTarget (project : Project) (reference : Reference) : Text :=
  Path.normalize (Path.append (Path.append project.root (Path.folder reference.origin))
    reference.spelling)

/-- What a reference leads to, seen from the root, if it lies there. -/
def targetBelowRoot? (project : Project) (reference : Reference) : Option Text :=
  Path.below? (Path.normalize project.root) (project.absoluteTarget reference)

/-- The meaning of a reference by the absolute path that it leads to. -/
def reexpressed (project : Project) (reference : Reference) : Resolution :=
  match project.targetBelowRoot? reference with
  | some inner => dropPackages (project.finish inner reference.spelling) reference.text
  | none => .unresolved reference.spelling outsideReason

theorem dropPackages_ne_outside (file text written : Text) :
    dropPackages (.projectFile file) text ≠ .unresolved written outsideReason := by
  have reasons : packagesReason ≠ outsideReason := by decide
  simp only [dropPackages]
  split
  · simp [reasons]
  · simp

/-- A path inside the root is not refused for leaving it. -/
theorem finish_ne_outside (project : Project) (inside : insideRoot target = true) (written text : Text) :
    dropPackages (project.finish target written) text ≠ .unresolved written outsideReason := by
  have reasons : notFoundReason ≠ outsideReason := by decide
  simp only [finish, inside, probe, Bool.not_true, Bool.false_eq_true, if_false]
  split
  case isTrue => exact dropPackages_ne_outside target text written
  case isFalse =>
    split
    case h_1 candidate hit => exact dropPackages_ne_outside candidate text written
    case h_2 => simp [dropPackages, reasons]

/-- A relative reference means what the absolute path that it leads to means, exactly if its walk stays
below the root or that path lies outside the root.  A reference whose walk leaves the root is
unresolved, wherever it ends. -/
theorem resolve_eq_reexpressed_iff (relative : project.IsRelative reference) :
    (project.resolve reference = project.reexpressed reference ↔
      (reached? reference).isSome ∨ project.targetBelowRoot? reference = none) ∧
    (reached? reference = none →
      project.resolve reference = .unresolved reference.spelling outsideReason) := by
  have absolute : Path.rootSlashes project.root ≠ 0 := by
    intro unrooted
    exact Path.rootSlashes_eq_zero_iff.mp unrooted relative.rooted
  obtain ⟨inFolder, named⟩ := relative.canonical.folder_eq
  refine ⟨?_, relative.resolve_of_left⟩
  cases reached : reached? reference with
  | some names =>
    have lies : project.targetBelowRoot? reference = some (Path.Parsed.mk 0 names).toText := by
      rw [targetBelowRoot?, absoluteTarget, inFolder]
      exact Path.below?_of_reach absolute named relative.unrooted reached
    have same : project.resolve reference = project.reexpressed reference := by
      rw [reexpressed, lies, (relative.resolve_of_reached reached).2]
    exact iff_of_true same (.inl rfl)
  | none =>
    rw [relative.resolve_of_left reached, reexpressed]
    cases lies : project.targetBelowRoot? reference with
    | none => simp
    | some inner =>
      have slashes := (Path.stack_append_absolute absolute named relative.unrooted).1
      rw [targetBelowRoot?, absoluteTarget, inFolder] at lies
      have inside := Path.insideRoot_of_below (slashes.trans_ne absolute) lies
      have differ := finish_ne_outside project inside reference.spelling reference.text
      simpa using differ.symm

/-- From a folder of the root a reference may go up to the root and down again. -/
theorem resolve_eq_reexpressed_below :
    let project : Project := { root := "/work/app", files := [] }
    let reference : Reference := ⟨"src/b/c.ts", "../../lib/../src/x.ts", .staticImport⟩
    project.IsRelative reference ∧ project.targetBelowRoot? reference = some "src/x.ts" ∧
      project.resolve reference = project.reexpressed reference ∧
      project.reexpressed reference = .projectFile "src/x.ts" := by
  intro project reference
  have relative : project.IsRelative reference :=
    ⟨by decide, by decide, by decide, by decide, by decide⟩
  exact ⟨relative, by decide, (resolve_eq_reexpressed_iff relative).1.mpr (.inl (by decide)), by decide⟩

/-- A reference that goes up out of the root and comes back by the name of the root is unresolved,
although the path that it leads to is that of a file. -/
theorem resolve_ne_reexpressed :
    let project : Project := { root := "/work/app", files := ["src/x.ts"].map Text.ofString }
    let reference : Reference := ⟨"src/i.ts", "../../app/src/x.ts", .staticImport⟩
    project.IsRelative reference ∧ project.absoluteTarget reference = "/work/app/src/x.ts" ∧
      project.reexpressed reference = .projectFile "src/x.ts" ∧
      project.resolve reference = .unresolved "../../app/src/x.ts" outsideReason := by
  intro project reference
  exact ⟨⟨by decide, by decide, by decide, by decide, by decide⟩, by decide, by decide, by decide⟩

/-! ## Folders and their index files -/

/-- The index file of a folder. -/
def indexOf (names : List Text) : Text := Path.join (names ++ [Text.ofString "index.ts"])

theorem indexOf_eq (nonempty : names ≠ []) : indexOf names = Path.join names ++ "/index.ts" :=
  Path.join_concat "index.ts" nonempty

/-- The index file of a folder outside the installed packages is outside of them, too. -/
theorem indexOf_outside (nonempty : names ≠ [])
    (outside : Text.contains (Path.join names) "node_modules" = false) :
    Text.contains (indexOf names) "node_modules" = false := by
  rw [Bool.eq_false_iff, ne_eq, Text.contains_iff] at outside ⊢
  intro occurs
  rw [indexOf, Path.join_concat _ nonempty] at occurs
  rcases Text.infix_of_separator (by decide) occurs with inside | last
  · exact outside inside
  · exact absurd (Text.contains_iff.mpr last) (by decide)

/-- A suffix behind the root itself gives no index file. -/
theorem here_append_ne_index : ∀ suffix ∈ probeSuffixes, Path.here ++ suffix ≠ indexOf [] := by
  decide

/-- Of the paths that complete the root itself, only those in the root can be known files. -/
theorem here_append_cases : ∀ suffix ∈ probeSuffixes, Path.IsCanonical (Path.here ++ suffix) →
    suffix ∈ [".ts", ".tsx", ".d.ts"].map Text.ofString := by
  decide

/-- A reference to a folder with an index file means that file exactly if the folder is not the root.
The root itself is written `.`, which no suffix completes to the path of its index file. -/
theorem folder_means_index_iff (relative : project.IsRelative reference)
    (reached : reached? reference = some names)
    (bare : hasRecognizedExtension (Path.Parsed.mk 0 names).toText = false)
    (outside : Text.contains (Path.Parsed.mk 0 names).toText "node_modules" = false)
    (known : ∀ file ∈ project.files, Path.IsCanonical file) (indexed : indexOf names ∈ project.files)
    (alone : names ≠ [] → Path.join names ++ ".ts" ∉ project.files ∧
      Path.join names ++ ".tsx" ∉ project.files) :
    (project.resolve reference = .projectFile (indexOf names) ↔ names ≠ []) ∧
    (names = [] → (∀ suffix ∈ [".ts", ".tsx", ".d.ts"].map Text.ofString,
        Path.here ++ suffix ∉ project.files) →
      project.resolve reference = .unresolved Path.here notFoundReason) := by
  obtain ⟨named, resolved⟩ := relative.resolve_of_reached reached
  obtain ⟨inside, unclosed⟩ := Path.toText_inside named
  by_cases root : names = []
  · subst root
    rw [Path.toText_nil] at resolved bare inside unclosed
    constructor
    · refine iff_of_false ?_ (by simp)
      rw [resolved, dropPackages_eq_projectFile, finish_eq_projectFile, if_neg (by simp [bare])]
      intro found
      obtain ⟨-, suffix, member, equal⟩ := probe_eq_projectFile found.1.2
      exact here_append_ne_index suffix member equal.symm
    · intro _ free
      have nothing : ∀ file, ¬ project.StandsFor Path.here file := by
        intro file stands
        cases stands with
        | itself recognized => simp [recognized] at bare
        | @completed before after suffix bare ordered passed found =>
          have member : suffix ∈ probeSuffixes := by simp [ordered]
          exact free suffix (here_append_cases suffix member (known _ found)) found
      rw [resolved, finish_of_nothing inside unclosed nothing]
      rfl
  · rw [Path.toText_of_ne_nil root named] at resolved bare outside inside unclosed
    have ordered : probeSuffixes = [".ts", ".tsx"].map Text.ofString ++
        Text.ofString "/index.ts" :: ["/index.tsx", ".d.ts", "/index.d.ts"].map Text.ofString := rfl
    have stands : project.StandsFor (Path.join names) (indexOf names) := by
      rw [indexOf_eq root] at indexed ⊢
      apply StandsFor.completed bare ordered _ indexed
      simpa using alone root
    refine ⟨iff_of_true ?_ root, fun empty => absurd empty root⟩
    rw [resolved, finish_of_standsFor inside unclosed stands, dropPackages,
      indexOf_outside root outside]
    rfl

/-- A folder below the root, left and entered again, is completed to its index file. -/
theorem folder_means_index_nested :
    let project : Project := { root := "/work/app", files := ["src/a/index.ts", "a.ts"].map Text.ofString }
    let reference : Reference := ⟨"src/a/b.ts", "..\\a/./", .dynamicImport⟩
    project.IsRelative reference ∧ reached? reference = some (["src", "a"].map Text.ofString) ∧
      project.resolve reference = .projectFile "src/a/index.ts" := by
  intro project reference
  have relative : project.IsRelative reference :=
    ⟨by decide, by decide, by decide, by decide, by decide⟩
  have reached : reached? reference = some (["src", "a"].map Text.ofString) := by decide
  have means := (folder_means_index_iff relative reached (by decide) (by decide) (by decide) (by decide)
    fun _ => by decide).1
  exact ⟨relative, reached, means.mpr (by decide)⟩

/-- The index file of the root is not found from a file beside it. -/
theorem root_without_index :
    let project : Project := { root := "/work/app", files := ["index.ts", "main.ts"].map Text.ofString }
    let reference : Reference := ⟨"main.ts", ".", .staticImport⟩
    project.IsRelative reference ∧ reached? reference = some [] ∧ indexOf [] ∈ project.files ∧
      (∀ file ∈ project.files, Path.IsCanonical file) ∧
      project.resolve reference = .unresolved "." notFoundReason := by
  intro project reference
  exact ⟨⟨by decide, by decide, by decide, by decide, by decide⟩, by decide, by decide, by decide, by decide⟩

end Project

end Deadwood
