import Deadwood.FileTree.Glob
import Deadwood.Proofs.Cleanup

/-!
# Trees with other contents

Where paths lead, which files a pattern selects and which files can be moved
does not depend on what the files hold.  For looking around this is said of any
new contents; moving changes places, so there it is said of the outline of a
tree, in which every file is empty.
-/

namespace Deadwood

/-- An entry with a new content, if it is a file and there is one. -/
def Entry.rewrite (content? : Option FileContent) : Entry → Entry
  | .file old => .file (content?.getD old)
  | .folder => .folder

@[simp] theorem Entry.rewrite_eq_folder {content? : Option FileContent} {entry : Entry} :
    entry.rewrite content? = .folder ↔ entry = .folder := by
  cases entry <;> simp [Entry.rewrite]

namespace FileTree

variable {tree : FileTree} {location : Location} {path source target : Path.Parsed}

/-- The tree with new contents for the files at some locations. -/
def rewrite (tree : FileTree) (contents : Location → Option FileContent) : FileTree :=
  { tree with entries := tree.entries.map fun item => (item.1, item.2.rewrite (contents item.1)) }

/-! ## Looking around -/

section

variable (tree : FileTree) (contents : Location → Option FileContent)

@[simp] theorem entry?_rewrite (location : Location) : FileTree.entry? (tree.rewrite contents) location =
    (tree.entry? location).map (Entry.rewrite (contents location)) := by
  by_cases inside : location = []
  · simp [inside, Entry.rewrite]
  · simp only [entry?_def, if_neg inside, rewrite, List.find?_map, Function.comp_def]
    cases found : tree.entries.find? (·.1 = location) with
    | none => rfl
    | some item =>
      have here : item.1 = location := by simpa using List.find?_some found
      simp [here]

@[simp] theorem walk_rewrite (start : Location) (names : List Text) :
    (tree.rewrite contents).walk start names = tree.walk start names := by
  induction names generalizing start with
  | nil => rfl
  | cons name rest ih =>
    simp only [walk, entry?_rewrite, ih]
    cases tree.entry? start with
    | none => rfl
    | some entry => cases entry <;> rfl

@[simp] theorem locate_rewrite (path : Path.Parsed) :
    (tree.rewrite contents).locate path = tree.locate path := by
  simp only [locate, walk_rewrite]
  rfl

@[simp] theorem resolve_rewrite (path : Path.Parsed) :
    (tree.rewrite contents).resolve path = tree.resolve path := rfl

theorem stat_rewrite (path : Path.Parsed) : (tree.rewrite contents).stat path =
    (tree.locate path).bind fun location =>
      (tree.stat path).map (Entry.rewrite (contents location)) := by
  simp only [stat, locate_rewrite, entry?_rewrite, bind]
  cases tree.locate path with
  | error fault => rfl
  | ok location =>
    simp only [Except.bind]
    cases tree.entry? location <;> rfl

@[simp] theorem isFolder_rewrite (path : Path.Parsed) :
    (tree.rewrite contents).isFolder path = tree.isFolder path := by
  simp only [isFolder, stat_rewrite]
  cases located : tree.locate path with
  | error fault => simp [stat, located, Except.bind, bind]
  | ok location =>
    cases tree.stat path with
    | error fault => rfl
    | ok entry => cases entry <;> rfl

@[simp] theorem existsAt_rewrite (path : Path.Parsed) :
    (tree.rewrite contents).existsAt path = tree.existsAt path := by
  simp only [existsAt, stat_rewrite]
  cases located : tree.locate path with
  | error fault => simp [stat, located, Except.bind, bind, Except.toOption]
  | ok location => cases tree.stat path <;> rfl

/-- A path leads to a new content, or to none. -/
theorem replaced_or_kept (path : Path.Parsed) :
    (∃ location content, tree.locate path = .ok location ∧ contents location = some content) ∨
      ∀ location, tree.locate path = .ok location → contents location = none := by
  cases located : tree.locate path with
  | error fault => exact .inr fun location leads => by cases leads
  | ok location =>
    cases given : contents location with
    | some content => exact .inl ⟨location, content, rfl, given⟩
    | none =>
      refine .inr fun other leads => ?_
      cases leads
      exact given

theorem stat_rewrite_of_kept {path : Path.Parsed}
    (kept : ∀ location, tree.locate path = .ok location → contents location = none) :
    (tree.rewrite contents).stat path = tree.stat path := by
  rw [stat_rewrite]
  cases located : tree.locate path with
  | error fault => simp [stat, located, bind, Except.bind]
  | ok location =>
    have same : ∀ entry : Entry, entry.rewrite none = entry := by
      intro entry
      cases entry <;> rfl
    rw [Except.bind, kept location located]
    cases tree.stat path <;> simp [Except.map, same]

theorem file_rewrite_of_replaced {path : Path.Parsed} {location : Location} {content : FileContent}
    (leads : tree.locate path = .ok location) (given : contents location = some content) :
    (tree.rewrite contents).file path = (tree.file path).map fun _ => content := by
  simp only [file, stat_rewrite, leads, bind, Except.bind, given]
  cases tree.stat path with
  | error fault => rfl
  | ok entry => cases entry <;> rfl

@[simp] theorem foldersBelow_rewrite (location : Location) :
    (tree.rewrite contents).foldersBelow location = tree.foldersBelow location := by
  simp [foldersBelow, rewrite, List.filterMap_map]

theorem children_rewrite (location : Location) : (tree.rewrite contents).children location =
    (tree.children location).map fun child =>
      (child.1, child.2.rewrite (contents (location ++ [child.1]))) := by
  rw [children_eq, children_eq, rewrite, List.filterMap_map, List.map_filterMap]
  congr 1
  funext item
  simp only [Function.comp]
  by_cases inside : item.1.dropLast = location
  · cases last : item.1.getLast? with
    | none => simp [inside]
    | some name =>
      have place : location ++ [name] = item.1 := by
        rw [← inside]
        exact List.dropLast_append_getLast? name last
      simp [inside, place]
  · simp [inside]

@[simp] theorem select_rewrite (segments : List GlobSegment) (location : Location) (shown : List Text) :
    (tree.rewrite contents).select segments location shown = tree.select segments location shown := by
  induction segments generalizing location shown with
  | nil => rfl
  | cons segment rest ih =>
    cases segment with
    | done => rfl
    | deep => simp only [select, foldersBelow_rewrite, ih]
    | wild pattern =>
      simp only [select, children_rewrite, List.flatMap_map, Entry.rewrite_eq_folder, ih]
    | exact name =>
      simp only [select, walk_rewrite, ih]
      cases tree.walk location [name] with
      | error fault => rfl
      | ok next =>
        simp only [entry?_rewrite]
        cases tree.entry? next with
        | none => rfl
        | some entry => simp

@[simp] theorem glob_rewrite (location : Location) (segments : List GlobSegment) :
    (tree.rewrite contents).glob location segments = tree.glob location segments := by
  simp only [glob, select_rewrite, walk_rewrite, entry?_rewrite]
  congr 1
  funext names
  cases tree.walk location names with
  | error fault => rfl
  | ok place =>
    simp only
    cases tree.entry? place with
    | none => rfl
    | some entry => cases entry <;> rfl

@[simp] theorem visits_rewrite (location : Location) (segments : List GlobSegment) :
    (tree.rewrite contents).visits location segments = tree.visits location segments := by
  have folders : ∀ shown depth segment, (tree.rewrite contents).visitsAt location shown depth segment =
      tree.visitsAt location shown depth segment := by
    intro shown depth segment
    cases segment <;> simp [visitsAt]
  simp only [visits, select_rewrite, folders]

end

/-! ## Moving -/

/-- The tree with all its files emptied. -/
def outline (tree : FileTree) : FileTree := tree.rewrite fun _ => some { bytes := [] }

@[simp] theorem outline_rewrite (tree : FileTree) (contents : Location → Option FileContent) :
    (tree.rewrite contents).outline = tree.outline := by
  have again : ∀ (entry : Entry) (content? : Option FileContent),
      (entry.rewrite content?).rewrite (some { bytes := [] }) = entry.rewrite (some { bytes := [] }) := by
    intro entry content?
    cases entry <;> rfl
  simp [outline, rewrite, again]

theorem outline_put (tree : FileTree) (location : Location) :
    (tree.put location .folder).outline = tree.outline.put location .folder := by
  simp only [outline, rewrite, put, List.any_map, Function.comp_def]
  split
  · simp only [List.map_map, FileTree.mk.injEq, true_and]
    apply List.map_congr_left
    intro item _
    simp only [Function.comp]
    split <;> rfl
  · simp [Entry.rewrite]

theorem outline_erase (tree : FileTree) (location : Location) :
    (tree.erase location).outline = tree.outline.erase location := by
  simp [outline, rewrite, erase, List.filter_map, Function.comp_def]

theorem outline_relocate (tree : FileTree) (old new : Location) :
    (tree.relocate old new).outline = tree.outline.relocate old new := by
  simp only [outline, rewrite, relocate, List.map_map, FileTree.mk.injEq, true_and]
  apply List.map_congr_left
  intro item _
  simp only [Function.comp]
  split <;> rfl

theorem makeFolder_outline (tree : FileTree) (path : Path.Parsed) :
    tree.outline.makeFolder path = (tree.makeFolder path).map outline := by
  simp only [makeFolder, bind, ← outline_put]
  simp only [outline, locate_rewrite, entry?_rewrite, Option.isSome_map]
  cases tree.locate path with
  | error fault => rfl
  | ok location =>
    simp only [Except.bind]
    split <;> rfl

theorem makeFolders_outline (tree : FileTree) (bound : Nat) (path : Path.Parsed) :
    tree.outline.makeFolders bound path =
      ((tree.makeFolders bound path).1.outline, (tree.makeFolders bound path).2) := by
  induction bound generalizing path with
  | zero => rfl
  | succ bound ih =>
    simp only [makeFolders, makeFolder_outline, ih]
    cases tree.makeFolder path with
    | ok made => rfl
    | error fault =>
      simp only [Except.map]
      cases fault with
      | notFound =>
        simp only
        split
        · rfl
        · cases tree.makeFolders bound path.parent with
          | mk above refusal =>
            cases refusal with
            | some refusal => rfl
            | none =>
              simp only [makeFolder_outline]
              cases above.makeFolder path with
              | ok made => rfl
              | error fault => simp [Except.map, outline]
      | _ => simp [outline]

theorem rename_outline (tree : FileTree) (source target : Path.Parsed) :
    tree.outline.rename source target = (tree.rename source target).map outline := by
  simp only [rename, bind, ← outline_erase, ← outline_relocate]
  simp only [outline, locate_rewrite, entry?_rewrite, children_rewrite, List.map_eq_nil_iff]
  cases tree.locate source with
  | error fault => rfl
  | ok old =>
    cases tree.locate target with
    | error fault => rfl
    | ok new =>
      simp only [Except.bind]
      cases tree.entry? old with
      | none => rfl
      | some moved =>
        simp only [Option.map_some]
        split
        · rfl
        · split
          · rfl
          · cases tree.entry? new with
            | none => rfl
            | some there =>
              cases moved with
              | file content => cases there <;> rfl
              | folder =>
                cases there with
                | file content => rfl
                | folder =>
                  simp only [Option.map_some, Entry.rewrite]
                  split <;> rfl

/-- Whether an entry can be moved does not depend on what files hold; what is said of a refusal may. -/
theorem move_outline (tree : FileTree) (source target : Path.Parsed) :
    (tree.outline.move source target).toOption = (tree.move source target).toOption.map outline := by
  have locates : ∀ path, tree.outline.locate path = tree.locate path := locate_rewrite tree _
  have folders : ∀ path, tree.outline.isFolder path = tree.isFolder path := isFolder_rewrite tree _
  have stands : ∀ path, tree.outline.existsAt path = tree.existsAt path := existsAt_rewrite tree _
  have entries : ∀ location, (FileTree.entry? tree.outline location).isSome =
      (tree.entry? location).isSome := by
    intro location
    rw [outline, entry?_rewrite, Option.isSome_map]
  unfold move
  simp -zeta only [locates, folders, stands, entries, rename_outline]
  -- The last two stand twice: in the outline, and in the tree itself.
  extract_lets same into final attempt check attempt' check'
  have attempted : (attempt ()).toOption = (attempt' ()).toOption.map outline := by
    simp only [attempt, attempt']
    cases tree.rename source final <;> rfl
  have checked : (check ()).toOption = (check' ()).toOption.map outline := by
    simp only [check, check']
    split
    · rfl
    · exact attempted
  split
  · rfl
  · exact checked

end FileTree

namespace Cleanup

theorem moveFile_outline (tree : FileTree) (root : Path.Parsed) (backupFolder path : Text) :
    (moveFile tree.outline root backupFolder path).map (fun outcome => (outcome.1, outcome.2.isSome)) =
      (moveFile tree root backupFolder path).map fun outcome => (outcome.1.outline, outcome.2.isSome) := by
  simp only [moveFile, FileTree.makeFolders_outline, bind]
  cases checkText (backupPath backupFolder path).parent.toText with
  | error fault => rfl
  | ok _ =>
    generalize root.append (backupPath backupFolder path) = target
    cases tree.makeFolders (target.names.length + 1) target.parent with
    | mk prepared refusal =>
      cases refusal with
      | some refusal => rfl
      | none =>
        simp only [Except.bind]
        cases checkText path with
        | error fault => rfl
        | ok _ =>
          have moved := prepared.move_outline (root.append (Path.Parsed.ofText path)) target
          cases outcome : prepared.move (root.append (Path.Parsed.ofText path)) target with
          | error reason =>
            rw [outcome] at moved
            obtain ⟨other, refused⟩ := Outcome.toOption_eq_none.mp moved
            rw [refused]
            rfl
          | ok after =>
            rw [outcome] at moved
            rw [Outcome.toOption_eq_some.mp moved]
            rfl

/-- Which files can be moved does not depend on what they hold. -/
theorem moveAll_outline (tree : FileTree) (root : Path.Parsed) (backupFolder : Text) (paths : List Text) :
    (moveAll root backupFolder tree.outline paths).result =
      (moveAll root backupFolder tree paths).result.map fun outcome => (outcome.1.outline, outcome.2) := by
  induction paths generalizing tree with
  | nil => rfl
  | cons path rest ih =>
    have step := moveFile_outline tree root backupFolder path
    rw [moveAll_cons, moveAll_cons]
    cases first : moveFile tree root backupFolder path with
    | error fault =>
      rw [first] at step
      rw [Outcome.map_eq_error.mp step]
      rfl
    | ok outcome =>
      rw [first] at step
      obtain ⟨⟨next, refusal⟩, ran, same⟩ := Outcome.map_eq_ok.mp step
      obtain ⟨rfl, alike⟩ := Prod.mk.inj same
      have stays : refusal = none ↔ outcome.2 = none := by
        rw [← Option.not_isSome_iff_eq_none, alike, Option.not_isSome_iff_eq_none]
      simp only [ran, Except.mapError, Except.bind, ih, stays]
      cases (moveAll root backupFolder outcome.1 rest).result <;> rfl

theorem clean_moved_congr {tree other : FileTree} (same : tree.outline = other.outline)
    (root : Path.Parsed) (unused : List Text) (backupFolder : Text) :
    (clean tree root unused backupFolder).result.map Prod.snd =
      (clean other root unused backupFolder).result.map Prod.snd := by
  have outlined : ∀ tree : FileTree, (clean tree root unused backupFolder).result.map Prod.snd =
      (moveAll root backupFolder tree.outline (unused.mergeSort Text.le)).result.map Prod.snd := by
    intro tree
    simp only [clean, Noted.result_bind, moveAll_outline]
    cases (moveAll root backupFolder tree (unused.mergeSort Text.le)).result <;> rfl
  rw [outlined tree, outlined other, same]

end Cleanup

end Deadwood
