import Deadwood.Proofs.RelativeReference

/-!
# What an importer bears on

Of the file that holds a reference, resolution uses the folder, and that only
for relative references.  Two references that read alike are therefore decided
alike in files of one folder, however the files are written, and if the rule is
another one in any two files.  A file can be written from the root, with
backslashes and detours, or absolutely behind the root.  The absolute form is
understood exactly if the root has a name and no backslash, since backslashes
are replaced in the importer and not in the root.
-/

namespace Deadwood

namespace Resolution

/-- The same file, the same package, or nothing for the same reason: two resolutions that differ at most in
the text that was not resolved. -/
inductive Agree : Resolution → Resolution → Prop where
  | projectFile (path : Text) : Agree (.projectFile path) (.projectFile path)
  | package (name : Text) : Agree (.package name) (.package name)
  | unresolved (text other reason : Text) : Agree (.unresolved text reason) (.unresolved other reason)

/-- What lies among the installed packages is dropped alike, in whatever text it was found. -/
theorem agree_dropPackages (resolution : Resolution) (text other : Text) :
    Agree (Project.dropPackages resolution text) (Project.dropPackages resolution other) := by
  cases resolution with
  | projectFile path =>
    simp only [Project.dropPackages]
    split
    · exact .unresolved text other packagesReason
    · exact .projectFile path
  | package name =>
    simp only [Project.dropPackages]
    split
    · exact .unresolved text other packagesReason
    · exact .package name
  | unresolved written reason => exact .unresolved written written reason

end Resolution

/-- Two references that the rules read alike: at the same kind of site, with the same text once it is
trimmed and written with slashes, and all of it can be encoded. -/
structure Reference.ReadAlike (first second : Reference) : Prop where
  site : first.site = second.site
  spelling : first.spelling = second.spelling
  encodable : ∀ text ∈ [first.text, first.origin, second.text, second.origin],
    Text.hasSurrogate text = false

namespace Project

open Resolution

variable {project : Project} {first second : Reference} {importer other : Text} {names others : List Text}

/-! ## Two references that read alike -/

/-- The rule that decides a reference. -/
def ruleOf (project : Project) (reference : Reference) : Rule :=
  (project.explain reference.origin reference.text reference.site).1

/-- One rule decides two references, and what they mean agrees. -/
def DecidesAlike (project : Project) (first second : Reference) : Prop :=
  project.ruleOf first = project.ruleOf second ∧ Agree (project.resolve first) (project.resolve second)

/-- Only the rule for relative references looks at the importer, and it looks at its folder. -/
theorem applyRule_of_folder {rule : Rule} (text : Text) (site : Site)
    (near : Path.folder importer = Path.folder other ∨ rule ≠ .relative) :
    project.applyRule rule { importer, text, site } =
      project.applyRule rule { importer := other, text, site } := by
  cases rule with
  | relative =>
    rcases near with folders | unrelated
    · simp only [applyRule, folders]
    · exact absurd rfl unrelated
  | _ => rfl

/-- Among the rules there are no refusals. -/
theorem ruleFor_ne_refusal (request : Request) (reference : Reference) :
    project.ruleFor request ≠ (refusal reference).1 := by
  simp only [ruleFor, refusal]
  grind

theorem ruleOf_of_request {request : Request} {reference : Reference}
    (made : project.request? reference = some request) :
    project.ruleOf reference = project.ruleFor request := by
  rw [ruleOf, explain_of_request made]

theorem decidesAlike_of_refused (alike : first.ReadAlike second)
    (refused : project.request? first = none) (stopped : project.request? second = none) :
    project.DecidesAlike first second := by
  have spelling := alike.spelling
  simp only [Reference.spelling] at spelling
  simp only [DecidesAlike, ruleOf, resolve, explain_of_no_request refused, explain_of_no_request stopped,
    refusal, alike.encodable first.text (by simp), alike.encodable first.origin (by simp),
    alike.encodable second.text (by simp), alike.encodable second.origin (by simp), spelling,
    Bool.or_self, Bool.false_eq_true, if_false]
  split
  · exact ⟨rfl, .unresolved first.text second.text emptyReason⟩
  · exact ⟨rfl, .unresolved first.text second.text outsideReason⟩

theorem decidesAlike_of_requests {request made : Request} (alike : first.ReadAlike second)
    (asked : project.request? first = some request) (answered : project.request? second = some made)
    (near : Path.folder request.importer = Path.folder made.importer ∨
      project.ruleOf first ≠ .relative) : project.DecidesAlike first second := by
  rw [ruleOf_of_request asked] at near
  obtain ⟨-, -, -, importer, -, rfl⟩ := request?_eq_some.mp asked
  obtain ⟨-, -, -, other, -, rfl⟩ := request?_eq_some.mp answered
  have spelling := alike.spelling
  simp only [Reference.spelling] at spelling
  constructor
  · rw [ruleOf_of_request asked, ruleOf_of_request answered, spelling, alike.site]
    rfl
  · rw [resolve_of_request asked, resolve_of_request answered, applyRule_of_folder _ _ near, spelling,
      alike.site]
    exact agree_dropPackages _ _ _

theorem ruleOf_ne_of_refused {request : Request} (asked : project.request? first = some request)
    (stopped : project.request? second = none) : project.ruleOf first ≠ project.ruleOf second := by
  have refused : project.ruleOf second = (refusal second).1 := by
    rw [ruleOf, explain_of_no_request stopped]
  rw [ruleOf_of_request asked, refused]
  exact ruleFor_ne_refusal request second

theorem request?_of_encodable {reference : Reference} (written : Text.hasSurrogate reference.text = false)
    (origin : Text.hasSurrogate reference.origin = false) :
    project.request? reference = if reference.spelling = [] then none
      else (project.importerPath reference.origin).map fun importer =>
        { importer, text := reference.spelling, site := reference.site } := by
  simp only [request?, written, origin, Bool.or_self, Bool.false_eq_true, if_false]
  rfl

/-- References that read alike, in files of one folder or decided by a rule that asks for no folder, are
decided alike unless only one of the two importers is accepted. -/
theorem decidesAlike_iff (alike : first.ReadAlike second)
    (near : ∀ importer other, project.importerPath first.origin = some importer →
      project.importerPath second.origin = some other →
        Path.folder importer = Path.folder other ∨ project.ruleOf first ≠ .relative) :
    project.DecidesAlike first second ↔ first.spelling = [] ∨
      (project.importerPath first.origin).isSome = (project.importerPath second.origin).isSome := by
  have asked : project.request? first = _ :=
    request?_of_encodable (alike.encodable _ (by simp)) (alike.encodable _ (by simp))
  have answered : project.request? second = _ :=
    request?_of_encodable (alike.encodable _ (by simp)) (alike.encodable _ (by simp))
  rw [← alike.spelling] at answered
  by_cases empty : first.spelling = []
  · rw [if_pos empty] at asked answered
    exact iff_of_true (decidesAlike_of_refused alike asked answered) (.inl empty)
  · rw [if_neg empty] at asked answered
    cases located : project.importerPath first.origin with
    | none =>
      rw [located] at asked
      cases found : project.importerPath second.origin with
      | none =>
        rw [found] at answered
        exact iff_of_true (decidesAlike_of_refused alike asked answered) (.inr rfl)
      | some other =>
        rw [found] at answered
        refine iff_of_false ?_ (by simp [empty])
        intro same
        exact ruleOf_ne_of_refused answered asked same.1.symm
    | some importer =>
      rw [located] at asked
      cases found : project.importerPath second.origin with
      | none =>
        rw [found] at answered
        refine iff_of_false ?_ (by simp [empty])
        intro same
        exact ruleOf_ne_of_refused asked answered same.1
      | some other =>
        rw [found] at answered
        have close := near importer other located found
        exact iff_of_true (decidesAlike_of_requests alike asked answered close) (.inr rfl)

/-! ## The ways to write an importer -/

/-- The root as a plain path, without doubled slashes and `.`. -/
def rootText (project : Project) : Text := (Path.Parsed.ofText project.root).toText

/-- An importer that is written from the root or absolutely, behind the root and a slash.  Backslashes, `.`
and steps upwards are allowed, as long as no step leaves the root; the names are those of its canonical
path. -/
inductive Locates (project : Project) (names : List Text) : Text → Prop where
  | relative {importer : Text} (unrooted : (forwardSlashes importer).head? ≠ some Path.slash)
      (reached : Path.reach? [] (forwardSlashes importer) = some names) : Locates project names importer
  | absolute (inner : Text) (unrooted : (forwardSlashes inner).head? ≠ some Path.slash)
      (reached : Path.reach? [] (forwardSlashes inner) = some names) :
      Locates project names (project.rootText ++ Path.slash :: inner)

/-- An absolute importer is recognized below a root that has a name and no backslash. -/
def Understands (project : Project) (importer : Text) : Prop :=
  (forwardSlashes importer).head? = some Path.slash →
    Path.properSegments project.root ≠ [] ∧ Codepoint.char '\\' ∉ project.root

instance (importer : Text) : Decidable (project.Understands importer) :=
  inferInstanceAs (Decidable (_ → _))

theorem rootText_eq (rooted : project.root.head? = some Path.slash) :
    ∃ count, project.rootText =
      Path.slash :: (List.replicate count Path.slash ++ Path.join (Path.properSegments project.root)) := by
  have slashes : Path.rootSlashes project.root ≠ 0 := fun equal =>
    Path.rootSlashes_eq_zero_iff.mp equal rooted
  obtain ⟨count, equal⟩ := Nat.exists_eq_succ_of_ne_zero slashes
  exact ⟨count, by simp [rootText, Path.Parsed.toText, Path.Parsed.ofText, equal, List.replicate_succ]⟩

/-- A root with names is written without a slash at its end. -/
theorem rootStart_of_names (rooted : project.root.head? = some Path.slash)
    (named : Path.properSegments project.root ≠ []) :
    project.rootStart = project.rootText ++ [Path.slash] := by
  have steps : ∀ part ∈ Path.properSegments project.root, Path.IsStep part := by
    intro part member
    obtain ⟨nonempty, notHere, free⟩ := Path.mem_properSegments member
    exact ⟨nonempty, notHere, free⟩
  obtain ⟨count, whole⟩ := rootText_eq rooted
  have unclosed : project.rootText.getLast? ≠ some Path.slash := by
    rw [whole, ← List.cons_append, List.getLast?_append_of_ne_nil _ (Path.join_ne_nil named steps)]
    exact Path.getLast?_join_ne_slash steps
  exact congrArg (· ++ [Path.slash]) (trimEndBy_slash_eq_self unclosed)

/-- A root without names is written as slashes, and only one of them is taken for its beginning. -/
theorem rootStart_of_no_names (rooted : project.root.head? = some Path.slash)
    (bare : Path.properSegments project.root = []) :
    project.rootStart = [Path.slash] ∧
      ∃ count, project.rootText = Path.slash :: List.replicate count Path.slash := by
  obtain ⟨count, whole⟩ := rootText_eq rooted
  rw [bare] at whole
  have slashes : project.rootText = Path.slash :: List.replicate count Path.slash := by
    simpa [Path.join, Text.joinWith] using whole
  have trimmed : Text.trimEndBy (· = Path.slash) project.rootText = [] := by
    rw [slashes, ← List.replicate_succ, Text.trimEndBy_eq_rdropWhile, List.rdropWhile_eq_nil_iff]
    intro c member
    simp [List.eq_of_mem_replicate member]
  exact ⟨congrArg (· ++ [Path.slash]) trimmed, count, slashes⟩

theorem mem_rootText_iff {c : Codepoint} (rooted : project.root.head? = some Path.slash)
    (solid : c ≠ Path.slash) (pointless : c ∉ Path.here) :
    c ∈ project.rootText ↔ c ∈ project.root := by
  obtain ⟨count, whole⟩ := rootText_eq rooted
  constructor
  · intro member
    have inside : c ∈ Path.join (Path.properSegments project.root) := by
      rw [whole] at member
      simpa [solid] using member
    rcases Path.mem_join inside with separator | ⟨part, listed, held⟩
    · exact absurd separator solid
    · exact Text.mem_of_mem_splitOn (List.mem_of_mem_filter listed) held
  · intro member
    rw [← Path.join_segments project.root] at member
    rcases Path.mem_join member with separator | ⟨part, listed, held⟩
    · exact absurd separator solid
    · have kept : part ∈ Path.properSegments project.root := by
        rw [Path.properSegments, List.mem_filter]
        refine ⟨listed, ?_⟩
        simp only [Bool.and_eq_true, bne_iff_ne]
        exact ⟨List.ne_nil_of_mem held, fun equal => pointless (equal ▸ held)⟩
      rw [whole]
      simp [Path.mem_join_of_mem kept held]

theorem importerPath_of_start {text : Text} (split : forwardSlashes importer = project.rootStart ++ text) :
    project.importerPath importer =
      if insideRoot (Path.normalize text) then some (Path.normalize text) else none := by
  have begins : Text.startsWith (project.rootStart ++ text) project.rootStart = true :=
    Text.startsWith_iff.mpr (List.prefix_append _ _)
  simp [importerPath, withoutRoot, split, begins]

theorem importerPath_of_foreign (foreign : ¬ project.rootStart <+: forwardSlashes importer)
    (rooted : (forwardSlashes importer).head? = some Path.slash) : project.importerPath importer = none := by
  simp [importerPath, Text.startsWith_eq_false.mpr foreign, Text.startsWith_singleton.mpr rooted]

theorem importerPath_of_unrooted (rooted : project.root.head? = some Path.slash)
    (unrooted : (forwardSlashes importer).head? ≠ some Path.slash) :
    project.importerPath importer = if insideRoot (Path.normalize (forwardSlashes importer)) then
      some (Path.normalize (forwardSlashes importer)) else none := by
  have outside : Text.startsWith (forwardSlashes importer) project.rootStart = false := by
    rw [Text.startsWith_eq_false]
    rintro ⟨rest, whole⟩
    rw [← whole, List.head?_append, head?_rootStart rooted] at unrooted
    exact unrooted rfl
  simp [importerPath, withoutRoot, outside, Text.startsWith_singleton_eq_false.mpr unrooted]

theorem forwardSlashes_behind (text inner : Text) : forwardSlashes (text ++ Path.slash :: inner) =
    forwardSlashes text ++ Path.slash :: forwardSlashes inner := by
  have kept : Path.slash ≠ Codepoint.char '\\' := by decide
  simp [forwardSlashes, Text.replaceChar, kept]

theorem backslash_not_mem_forwardSlashes (text : Text) :
    Codepoint.char '\\' ∉ forwardSlashes text := by
  rw [forwardSlashes, Text.replaceChar, List.mem_map]
  rintro ⟨c, -, equal⟩
  split at equal
  case isTrue => exact absurd equal (by decide)
  case isFalse other => exact other equal

theorem not_insideRoot_of_rooted {text : Text} (rooted : text.head? = some Path.slash) :
    insideRoot (Path.normalize text) = false := by
  have absolute := Path.head?_normalize_of_rooted fun equal =>
    Path.rootSlashes_eq_zero_iff.mp equal rooted
  rw [Bool.eq_false_iff, ne_eq, insideRoot_iff]
  intro inside
  exact inside.2.2 absolute

/-- An absolute importer behind a plain root is the path behind the root; below any other root it is
refused. -/
theorem importerPath_of_absolute (rooted : project.root.head? = some Path.slash) (inner : Text) :
    project.importerPath (project.rootText ++ Path.slash :: inner) =
      if Path.properSegments project.root ≠ [] ∧ Codepoint.char '\\' ∉ project.root ∧
          insideRoot (Path.normalize (forwardSlashes inner)) then
        some (Path.normalize (forwardSlashes inner))
      else none := by
  have escaped : Codepoint.char '\\' ∈ project.rootText ↔ Codepoint.char '\\' ∈ project.root :=
    mem_rootText_iff rooted (by decide) (by decide)
  by_cases bare : Path.properSegments project.root = []
  · -- One slash of the root is taken away, and the rest still begins with one.
    obtain ⟨start, count, slashes⟩ := rootStart_of_no_names rooted bare
    have split : forwardSlashes (project.rootText ++ Path.slash :: inner) =
        project.rootStart ++ (List.replicate count Path.slash ++ Path.slash :: forwardSlashes inner) := by
      have plain : Codepoint.char '\\' ∉ project.rootText := by
        rw [slashes, ← List.replicate_succ]
        intro member
        exact absurd (List.eq_of_mem_replicate member) (by decide)
      rw [forwardSlashes_behind, forwardSlashes_eq_self plain, start, slashes]
      simp
    have front : (List.replicate count Path.slash ++ Path.slash :: forwardSlashes inner).head? =
        some Path.slash := by
      cases count <;> rfl
    rw [importerPath_of_start split, not_insideRoot_of_rooted front]
    simp [bare]
  · by_cases held : Codepoint.char '\\' ∈ project.root
    · -- The importer has lost its backslashes and no longer begins like the root.
      have foreign : ¬ project.rootStart <+: forwardSlashes (project.rootText ++ Path.slash :: inner) := by
        intro begins
        rw [rootStart_of_names rooted bare] at begins
        have kept := begins.subset (List.mem_append_left _ (escaped.mpr held))
        exact backslash_not_mem_forwardSlashes _ kept
      rw [importerPath_of_foreign foreign, if_neg (by simp [held])]
      obtain ⟨count, whole⟩ := rootText_eq rooted
      rw [whole]
      rfl
    · have split : forwardSlashes (project.rootText ++ Path.slash :: inner) =
          project.rootStart ++ forwardSlashes inner := by
        rw [forwardSlashes_behind, forwardSlashes_eq_self (mt escaped.mp held),
          rootStart_of_names rooted bare]
        simp
      rw [importerPath_of_start split]
      simp [bare, held]

/-- What is reached from the root without leaving it is the normalized text. -/
theorem normalize_of_reached {text : Text} (unrooted : text.head? ≠ some Path.slash)
    (reached : Path.reach? [] text = some names) :
    (∀ name ∈ names, Path.IsName name) ∧ Path.normalize text = (Path.Parsed.mk 0 names).toText := by
  have walked := Path.normalize_of_reach (by simp) unrooted reached
  rwa [Path.append_join (by simp) unrooted, if_pos rfl] at walked

theorem Locates.named (located : project.Locates names importer) : ∀ name ∈ names, Path.IsName name := by
  cases located with
  | relative unrooted reached => exact (normalize_of_reached unrooted reached).1
  | absolute inner unrooted reached => exact (normalize_of_reached unrooted reached).1

/-- Below an absolute root an importer is accepted exactly if it is understood, with its canonical path. -/
theorem Locates.importerPath_eq (located : project.Locates names importer)
    (rooted : project.root.head? = some Path.slash) :
    project.importerPath importer =
      if project.Understands importer then some (Path.Parsed.mk 0 names).toText else none := by
  have inside := (Path.toText_inside located.named).1
  cases located with
  | relative unrooted reached =>
    have understood : project.Understands importer := fun front => absurd front unrooted
    rw [importerPath_of_unrooted rooted unrooted, (normalize_of_reached unrooted reached).2, inside,
      if_pos understood]
    rfl
  | absolute inner unrooted reached =>
    have front : (forwardSlashes (project.rootText ++ Path.slash :: inner)).head? =
        some Path.slash := by
      obtain ⟨count, whole⟩ := rootText_eq rooted
      rw [whole]
      rfl
    rw [importerPath_of_absolute rooted, (normalize_of_reached unrooted reached).2]
    simp only [inside, and_true, Understands, front, forall_const]

theorem folder_of_names (named : ∀ name ∈ names, Path.IsName name) :
    Path.folder (Path.Parsed.mk 0 names).toText = Path.join names.dropLast := by
  rcases List.eq_nil_or_concat names with rfl | ⟨above, last, rfl⟩
  · rfl
  · rw [List.concat_eq_append] at named ⊢
    rw [Path.toText_of_ne_nil (by simp) named, Path.folder_concat above last named, List.dropLast_concat]

/-- Of an importer that is accepted, only the folder bears on a reference, and that only for relative
references.  However the importers of two references that read alike are written, the references are
decided alike exactly if both importers are understood or neither is. -/
theorem decided_by_folder (alike : first.ReadAlike second) :
    (∀ importer other, project.importerPath first.origin = some importer →
      project.importerPath second.origin = some other →
      Path.folder importer = Path.folder other ∨ project.ruleOf first ≠ .relative →
        project.DecidesAlike first second) ∧
    (project.root.head? = some Path.slash →
      ∀ names others, project.Locates names first.origin → project.Locates others second.origin →
        names.dropLast = others.dropLast ∨ project.ruleOf first ≠ .relative →
          (project.DecidesAlike first second ↔ first.spelling = [] ∨
            (project.Understands first.origin ↔ project.Understands second.origin))) := by
  constructor
  · intro importer other located found near
    apply (decidesAlike_iff alike _).mpr
    · simp [located, found]
    · intro path target held kept
      rw [located, Option.some.injEq] at held
      rw [found, Option.some.injEq] at kept
      rwa [← held, ← kept]
  · intro rooted names others located found near
    have accepted := located.importerPath_eq rooted
    have answered := found.importerPath_eq rooted
    rw [decidesAlike_iff alike]
    · rw [accepted, answered]
      by_cases known : project.Understands first.origin <;>
        by_cases understood : project.Understands second.origin <;> simp [known, understood]
    · intro importer other held kept
      rw [accepted, Option.ite_none_right_eq_some, Option.some.injEq] at held
      rw [answered, Option.ite_none_right_eq_some, Option.some.injEq] at kept
      obtain ⟨-, rfl⟩ := held
      obtain ⟨-, rfl⟩ := kept
      rw [folder_of_names located.named, folder_of_names found.named]
      exact near.imp_left (congrArg Path.join)

/-- Two files of one folder, one written absolutely with a detour and the other with a backslash. -/
theorem decided_by_folder_detour :
    let project : Project := { root := "/work//app/", files := ["src/y.tsx"].map Text.ofString }
    let first : Reference := ⟨"/work/app/lib\\../src/x.ts", " .\\y", .staticImport⟩
    let second : Reference := ⟨"src\\z.ts", "./y ", .staticImport⟩
    first.ReadAlike second ∧ project.ruleOf first = .relative ∧
      project.Locates (["src", "x.ts"].map Text.ofString) first.origin ∧
      project.Locates (["src", "z.ts"].map Text.ofString) second.origin ∧
      project.DecidesAlike first second ∧ project.resolve first = .projectFile "src/y.tsx" := by
  intro project first second
  have alike : first.ReadAlike second := ⟨rfl, by decide, by decide⟩
  have located : project.Locates (["src", "x.ts"].map Text.ofString) first.origin :=
    .absolute "lib\\../src/x.ts" (by decide) (by decide)
  have found : project.Locates (["src", "z.ts"].map Text.ofString) second.origin :=
    .relative (by decide) (by decide)
  have decided := (decided_by_folder alike).2 rfl _ _ located found (.inl rfl)
  exact ⟨alike, by decide, located, found, decided.mpr (.inr (by decide)), by decide⟩

/-- Below a root with a backslash an importer is understood from the root and not behind it. -/
theorem decided_apart_by_backslash :
    let project : Project := { root := "/work/a\\b", files := [] }
    let first : Reference := ⟨"src/x.ts", "./y.ts", .staticImport⟩
    let second : Reference := ⟨"/work/a\\b/src/x.ts", "./y.ts", .staticImport⟩
    first.ReadAlike second ∧ project.Locates (["src", "x.ts"].map Text.ofString) first.origin ∧
      project.Locates (["src", "x.ts"].map Text.ofString) second.origin ∧
      project.ruleOf first = .relative ∧ project.resolve first = .projectFile "src/y.ts" ∧
      project.ruleOf second = .importer ∧
      project.resolve second = .unresolved "./y.ts" outsideReason := by
  intro project first second
  have alike : first.ReadAlike second := ⟨rfl, rfl, by decide⟩
  have located : project.Locates (["src", "x.ts"].map Text.ofString) first.origin :=
    .relative (by decide) (by decide)
  have found : project.Locates (["src", "x.ts"].map Text.ofString) second.origin :=
    .absolute "src/x.ts" (by decide) (by decide)
  exact ⟨alike, located, found, by decide, by decide, by decide, by decide⟩

end Project

end Deadwood
