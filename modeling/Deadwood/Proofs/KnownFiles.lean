import Mathlib.Data.List.Find
import Deadwood.Proofs.Resolution

/-!
# Resolution and the known files

Resolution asks which files are known only when it completes a path without a
recognized extension.  So a reference that is never completed means the same
among any files, and one that is completed depends on no more than the paths
that its suffixes give.  Further files can lead a reference to one of
themselves, and never leave it without a file that it had before.
-/

namespace Deadwood

namespace Resolution

variable {path file : Text} {known wider : List Text}

/-- The paths that complete a path, in the order in which they are tried. -/
def candidates (path : Text) : List Text :=
  probeSuffixes.map (Text.trimEndBy (· = Path.slash) path ++ ·)

theorem probe_eq (path : Text) (known : List Text) :
    probe path known = match (candidates path).find? known.contains with
      | some candidate => .projectFile candidate
      | none => .unresolved path notFoundReason :=
  rfl

/-- Completing a path asks only whether its candidates are known. -/
theorem probe_congr (same : ∀ candidate ∈ candidates path, candidate ∈ known ↔ candidate ∈ wider) :
    probe path wider = probe path known := by
  have asked : (candidates path).find? wider.contains = (candidates path).find? known.contains := by
    apply List.find?_congr
    intro candidate member
    rw [Bool.eq_iff_iff, List.contains_iff_mem, List.contains_iff_mem]
    exact (same candidate member).symm
  rw [probe_eq, probe_eq, asked]

/-- Among more files the first known candidate stays the same, or an earlier one takes its place. -/
theorem find?_of_subset (grown : known ⊆ wider) {listed : List Text}
    (found : listed.find? known.contains = some file) :
    ∃ other, listed.find? wider.contains = some other ∧ (other = file ∨ other ∈ wider ∧ other ∉ known) := by
  induction listed with
  | nil => cases found
  | cons candidate rest ih =>
    by_cases old : candidate ∈ known
    · rw [List.find?_cons_of_pos (by simpa using old)] at found
      exact ⟨candidate, List.find?_cons_of_pos (by simpa using grown old), .inl (Option.some.inj found)⟩
    · rw [List.find?_cons_of_neg (by simpa using old)] at found
      by_cases new : candidate ∈ wider
      · exact ⟨candidate, List.find?_cons_of_pos (by simpa using new), .inr ⟨new, old⟩⟩
      · rw [List.find?_cons_of_neg (by simpa using new)]
        exact ih found

theorem probe_of_subset (grown : known ⊆ wider) (found : probe path known = .projectFile file) :
    ∃ other, probe path wider = .projectFile other ∧ (other = file ∨ other ∈ wider ∧ other ∉ known) := by
  rw [probe_eq] at found
  split at found
  case h_2 => cases found
  case h_1 candidate first =>
    cases found
    obtain ⟨other, hit, place⟩ := find?_of_subset grown first
    exact ⟨other, by rw [probe_eq, hit], place⟩

/-- A suffix neither holds the folder of the installed packages nor completes its name. -/
theorem contains_append_suffix {suffix : Text} (member : suffix ∈ probeSuffixes) (path : Text) :
    Text.contains (path ++ suffix) "node_modules" = Text.contains path "node_modules" := by
  have apart : ∀ suffix ∈ probeSuffixes, suffix ≠ [] ∧
      (∀ c ∈ suffix.head?, c ∉ Text.ofString "node_modules") ∧
      Text.contains suffix.tail "node_modules" = false := by decide
  obtain ⟨nonempty, separates, free⟩ := apart suffix member
  obtain ⟨separator, rest, rfl⟩ := List.exists_cons_of_ne_nil nonempty
  rw [Bool.eq_iff_iff, Text.contains_iff, Text.contains_iff]
  constructor
  · intro occurs
    rcases Text.infix_of_separator (separates separator rfl) occurs with before | behind
    · exact before
    · rw [List.tail_cons, Bool.eq_false_iff, ne_eq, Text.contains_iff] at free
      exact absurd behind free
  · intro occurs
    exact occurs.trans (List.prefix_append _ _).isInfix

/-- Whatever completes a path, it lies among the installed packages exactly if the path does. -/
theorem contains_of_probe (found : probe path known = .projectFile file) :
    Text.contains file "node_modules" =
      Text.contains (Text.trimEndBy (· = Path.slash) path) "node_modules" := by
  obtain ⟨-, suffix, member, rfl⟩ := probe_eq_projectFile found
  exact contains_append_suffix member _

end Resolution

namespace Project

open Resolution

variable {project : Project} {request : Request} {reference : Reference} {path target : Text}
variable {files : List Text}

/-- The path that a reference hands to the probe, if it comes to that: one below the root without a
recognized extension. -/
def probed? (project : Project) (reference : Reference) : Option Text :=
  ((project.pathSought? reference).map Path.normalize).filter fun target =>
    insideRoot target && !hasRecognizedExtension target

theorem probed?_eq_some : project.probed? reference = some target ↔
    ∃ sought, project.pathSought? reference = some sought ∧ Path.normalize sought = target ∧
      insideRoot target = true ∧ hasRecognizedExtension target = false := by
  simp only [probed?, Option.filter_eq_some_iff, Option.map_eq_some_iff, Bool.and_eq_true,
    Bool.not_eq_true']
  grind

/-- A rule asks for the known files only through the path that it looks for. -/
theorem applyRule_congr {rule : Rule} (same : ∀ sought, project.sought? rule request = some sought →
      ∀ written, { project with files }.finish (Path.normalize sought) written =
        project.finish (Path.normalize sought) written) :
    { project with files }.applyRule rule request = project.applyRule rule request := by
  cases rule with
  | aliased => exact same _ rfl _
  | styleTilde =>
    simp only [applyRule]
    split
    case isFalse => rfl
    case isTrue begins => exact same _ (if_pos begins) _
  | relative => exact same _ rfl _
  | sourcePath => exact same _ rfl _
  | _ => rfl

theorem finish_congr {written : Text} (same : insideRoot target = true →
      hasRecognizedExtension target = false → probe target files = probe target project.files) :
    { project with files }.finish target written = project.finish target written := by
  simp only [finish]
  split
  case isTrue => rfl
  case isFalse inside =>
    split
    case isTrue => rfl
    case isFalse recognized => exact same (by simpa using inside) (by simpa using recognized)

/-- A reference is decided alike among other files, if they give the probe the same answer whenever it is
asked. -/
theorem explain_congr (same : ∀ target, project.probed? reference = some target →
      probe target files = probe target project.files) :
    { project with files }.explain reference.origin reference.text reference.site =
      project.explain reference.origin reference.text reference.site := by
  have asked : { project with files }.request? reference = project.request? reference := rfl
  cases made : project.request? reference with
  | none => rw [explain_of_no_request made, explain_of_no_request (asked.trans made)]
  | some request =>
    have applied : { project with files }.applyRule (project.ruleFor request) request =
        project.applyRule (project.ruleFor request) request := by
      apply applyRule_congr
      intro sought seeks written
      apply finish_congr
      intro inside bare
      exact same _ (probed?_eq_some.mpr ⟨sought, by simp [pathSought?, made, seeks], rfl, inside, bare⟩)
    have decided : { project with files }.ruleFor request = project.ruleFor request := rfl
    rw [explain_of_request made, explain_of_request (asked.trans made), decided, applied]

/-- A reference that hands a path to the probe means what the probe says of it. -/
theorem resolve_of_probed (handed : project.probed? reference = some target) :
    project.resolve reference = dropPackages (probe target project.files) reference.text := by
  obtain ⟨sought, seeks, rfl, inside, bare⟩ := probed?_eq_some.mp handed
  obtain ⟨request, made, looks⟩ := Option.bind_eq_some_iff.mp seeks
  obtain ⟨written, applied⟩ := applyRule_of_sought looks
  rw [resolve_of_request made, applied]
  simp [finish, inside, bare]

theorem resolve_eq_of_explain {other : Project}
    (same : other.explain reference.origin reference.text reference.site =
      project.explain reference.origin reference.text reference.site) :
    other.resolve reference = project.resolve reference := by
  rw [resolve, resolve, same]

/-- A reference that is taken for a package hands no path to the probe. -/
theorem probed?_of_package {name : Text} (taken : project.resolve reference = .package name) :
    project.probed? reference = none := by
  rw [Option.eq_none_iff_forall_ne_some]
  intro target handed
  rw [resolve_of_probed handed, dropPackages_eq_package] at taken
  exact probe_ne_package name taken.1

/-- How a reference depends on the known files.  Among more files a reference to a file still means a
file, the same one or one that was not known before.  A package stays the same, and so does everything
that is decided without the probe.  Where the probe is asked, only its six candidates matter. -/
theorem explain_of_more_files (project : Project) (files : List Text) (grown : project.files ⊆ files)
    (reference : Reference) :
    (∀ path, project.resolve reference = .projectFile path →
      ∃ other, { project with files }.resolve reference = .projectFile other ∧
        (other = path ∨ other ∈ files ∧ other ∉ project.files)) ∧
    (∀ name, project.resolve reference = .package name ↔
      { project with files }.resolve reference = .package name) ∧
    (project.probed? reference = none →
      { project with files }.explain reference.origin reference.text reference.site =
        project.explain reference.origin reference.text reference.site) ∧
    ∀ target, project.probed? reference = some target →
      project.resolve reference = dropPackages (probe target project.files) reference.text ∧
      ((∀ candidate ∈ candidates target, candidate ∈ project.files ↔ candidate ∈ files) →
        { project with files }.explain reference.origin reference.text reference.site =
          project.explain reference.origin reference.text reference.site) := by
  have handed : { project with files }.probed? reference = project.probed? reference := rfl
  have unprobed : project.probed? reference = none →
      { project with files }.explain reference.origin reference.text reference.site =
        project.explain reference.origin reference.text reference.site := by
    intro spared
    apply explain_congr
    intro target asked
    rw [spared] at asked
    cases asked
  refine ⟨?_, ?_, unprobed, ?_⟩
  · intro path named
    cases asked : project.probed? reference with
    | none =>
      refine ⟨path, ?_, .inl rfl⟩
      rw [resolve_eq_of_explain (unprobed asked), named]
    | some target =>
      rw [resolve_of_probed asked, dropPackages_eq_projectFile] at named
      obtain ⟨other, found, place⟩ := probe_of_subset grown named.1
      refine ⟨other, ?_, place⟩
      rw [resolve_of_probed (handed.trans asked), dropPackages_eq_projectFile]
      exact ⟨found, by rw [contains_of_probe found, ← contains_of_probe named.1, named.2]⟩
  · intro name
    constructor
    · intro taken
      rw [resolve_eq_of_explain (unprobed (probed?_of_package taken)), taken]
    · intro taken
      rw [← resolve_eq_of_explain (unprobed (handed.symm.trans (probed?_of_package taken))), taken]
  · intro target asked
    refine ⟨resolve_of_probed asked, fun same => ?_⟩
    apply explain_congr
    intro other again
    rw [asked, Option.some.injEq] at again
    exact again ▸ probe_congr same

/-- A further file that an earlier suffix gives takes a reference over. -/
theorem explain_of_more_files_earlier :
    let project : Project := { root := "/work/app", files := ["src/a/index.ts"].map Text.ofString }
    let files := ["src/a.tsx", "src/a/index.ts"].map Text.ofString
    let reference : Reference := ⟨"src/i.ts", "@/a/", .staticImport⟩
    project.files ⊆ files ∧ project.resolve reference = .projectFile "src/a/index.ts" ∧
      ∃ other ∈ files, { project with files }.resolve reference = .projectFile other ∧
        other ∉ project.files := by
  intro project files reference
  have grown : project.files ⊆ files := List.subset_cons_self _ _
  have named : project.resolve reference = .projectFile "src/a/index.ts" := by decide
  have moved : { project with files }.resolve reference ≠ .projectFile "src/a/index.ts" := by decide
  obtain ⟨other, found, same | ⟨listed, new⟩⟩ :=
    (explain_of_more_files project files grown reference).1 _ named
  · exact absurd (same ▸ found) moved
  · exact ⟨grown, named, other, listed, found, new⟩

end Project

end Deadwood
