import Deadwood.Proofs.MovedFiles

/-!
# Ways below a folder

A path without steps upwards leads from a folder down its names.  It leads on as
long as no file is in the way and no name is too long, and just then all folders
on the way can be made.  A file can be moved there unless it would be in its own
way, or a folder stands there that holds the name already.
-/

namespace Deadwood.FileTree

variable {tree made : FileTree} {here place other last old new : Location} {names front rest : List Text}
  {root source target : Path.Parsed} {content : FileContent}

/-! ## Files by place -/

/-- The file at a place, if there is one. -/
def fileAt (tree : FileTree) (place : Location) : Option FileContent :=
  match tree.entry? place with
  | some (.file content) => some content
  | _ => none

theorem fileAt_eq_some : tree.fileAt place = some content ↔ tree.entry? place = some (.file content) := by
  rw [fileAt]
  split
  case h_1 other found => simp [found]
  case h_2 no_file => simpa using fun found => no_file content found

theorem fileAt_congr (same : made.entry? place = tree.entry? other) : made.fileAt place = tree.fileAt other := by
  rw [fileAt, same, fileAt]

/-- Making folders changes no file. -/
theorem Adds.fileAt {P : Location → Prop} (adds : Adds P tree made) (place : Location) :
    made.fileAt place = tree.fileAt place := by
  cases before : tree.entry? place with
  | some entry => exact fileAt_congr ((adds.kept place entry before).trans before.symm)
  | none =>
    cases after : made.entry? place with
    | none => exact fileAt_congr (after.trans before.symm)
    | some entry =>
      rw [(adds.added place entry after before).1] at after
      simp only [FileTree.fileAt, before, after]

/-! ## Walks -/

/-- All places on a walk but the last are folders. -/
theorem folder_of_walk (walked : tree.walk here (front ++ rest) = .ok last) (nonempty : rest ≠ []) :
    tree.entry? (descend here front) = some .folder := by
  rw [walk_append, Outcome.bind_eq_ok] at walked
  obtain ⟨middle, reached, walked⟩ := walked
  obtain ⟨name, more, rfl⟩ := List.exists_cons_of_ne_nil nonempty
  rw [← walk_eq_descend reached]
  rw [walk] at walked
  split at walked
  case h_1 folder => exact folder
  case h_2 => cases walked
  case h_3 => cases walked

/-- No name on a walk is too long. -/
theorem short_of_walk (walked : tree.walk here names = .ok last) : ∀ name ∈ names, isTooLong name = false := by
  induction names generalizing here with
  | nil => nofun
  | cons name rest ih =>
    rw [walk] at walked
    split at walked
    case h_1 =>
      split at walked
      case isTrue => cases walked
      case isFalse short => exact List.forall_mem_cons.mpr ⟨Bool.eq_false_iff.mpr short, ih walked⟩
    case h_2 => cases walked
    case h_3 => cases walked

/-- Names without steps upwards lead on as long as the places on the way are folders. -/
theorem walk_level (tree : FileTree) (here : Location) (level : ∀ name ∈ names, Path.IsName name)
    (short : ∀ name ∈ names, isTooLong name = false) :
    tree.walk here names = .ok (here ++ names) ∨ ∃ front rest, names = front ++ rest ∧ rest ≠ [] ∧
      ((tree.entry? (here ++ front) = none ∧ tree.walk here names = .error .notFound) ∨
        ∃ content, tree.entry? (here ++ front) = some (.file content)) := by
  induction names generalizing here with
  | nil => exact .inl (by simp [walk, pure, Except.pure])
  | cons name rest ih =>
    obtain ⟨named, level⟩ := List.forall_mem_cons.mp level
    obtain ⟨fits, short⟩ := List.forall_mem_cons.mp short
    cases found : tree.entry? here with
    | none =>
      refine .inr ⟨[], name :: rest, rfl, by simp, .inl ⟨by simpa using found, ?_⟩⟩
      rw [walk, found]
      rfl
    | some entry =>
      cases entry with
      | file content => exact .inr ⟨[], name :: rest, rfl, by simp, .inr ⟨content, by simpa using found⟩⟩
      | folder =>
        have step : tree.walk here (name :: rest) = tree.walk (here ++ [name]) rest := by
          simp [walk, found, fits, named.not_up]
        rw [step]
        rcases ih (here ++ [name]) level short with reached | ⟨front, more, rfl, nonempty, stuck⟩
        · left
          rw [reached]
          simp
        · refine .inr ⟨name :: front, more, rfl, nonempty, ?_⟩
          simpa using stuck

/-- A short way to a place in a folder leads there. -/
theorem walk_of_parent (wellFormed : tree.WellFormed) (level : ∀ name ∈ names, Path.IsName name)
    (short : ∀ name ∈ names, isTooLong name = false) (housed : tree.entry? (here ++ names.dropLast) = some .folder) :
    tree.walk here names = .ok (here ++ names) := by
  have folders : ∀ front rest, names = front ++ rest → rest ≠ [] → tree.entry? (here ++ front) = some .folder := by
    rintro front rest rfl nonempty
    rw [List.dropLast_append_of_ne_nil nonempty, ← List.append_assoc] at housed
    exact wellFormed.folder_of_append housed
  rcases walk_level tree here level short with reached | ⟨front, rest, split, nonempty, stuck⟩
  · exact reached
  · have folder := folders front rest split nonempty
    rw [folder] at stuck
    simp at stuck

/-- Names without steps upwards lead from a folder to the place that they spell. -/
theorem locate_below (located : tree.locate root = .ok here) (level : ∀ name ∈ names, Path.IsName name)
    (found : tree.locate (root.append ⟨0, names⟩) = .ok place) :
    place = here ++ names ∧ tree.walk here names = .ok place := by
  obtain ⟨-, above, same, walked⟩ := (locate_append rfl).mp found
  cases located.symm.trans same
  refine ⟨?_, walked⟩
  rw [walk_eq_descend walked, descend_of_level fun name member => (level name member).not_up]

/-- A path leads on to a place where no folder is gone. -/
theorem locate_of_folders (working : made.here = tree.here)
    (kept : ∀ place, tree.entry? place = some .folder → made.entry? place = some .folder)
    (located : tree.locate root = .ok here) : made.locate root = .ok here := by
  obtain ⟨short, walked⟩ := locate_eq_ok.mp located
  rw [locate_eq_ok, namesFromRoot, working]
  exact ⟨short, walk_of_folders kept walked⟩

/-! ## Folders on a way -/

/-- Folders are made below a folder only. -/
theorem makeFolders_below (located : tree.locate root = .ok here) (folder : tree.entry? here = some .folder)
    (level : ∀ name ∈ names, Path.IsName name) (bound : Nat) :
    Adds (fun place => ∃ front, front <+: names ∧ place = here ++ front) tree
      (tree.makeFolders bound (root.append ⟨0, names⟩)).1 := by
  have adds := makeFolders_adds tree bound (root.append ⟨0, names⟩)
  have way : tree.namesFromRoot (root.append ⟨0, names⟩) = tree.namesFromRoot root ++ names :=
    namesFromRoot_append tree root rfl
  have walked := (locate_eq_ok.mp located).2
  refine ⟨adds.here, adds.kept, fun place entry found vacant => ?_⟩
  obtain ⟨is_folder, front, begins, rfl⟩ := adds.added place entry found vacant
  refine ⟨is_folder, ?_⟩
  rw [way] at begins
  have reached : descend [] (tree.namesFromRoot root) = here := (walk_eq_descend walked).symm
  rcases List.prefix_or_prefix_of_prefix begins (List.prefix_append (tree.namesFromRoot root) names) with
    ⟨rest, split⟩ | ⟨below, rfl⟩
  · -- The places on the way to the folder are taken.
    by_cases whole : rest = []
    · rw [whole, List.append_nil] at split
      rw [split, reached, folder] at vacant
      cases vacant
    · rw [← split] at walked
      rw [folder_of_walk walked whole] at vacant
      cases vacant
  · rw [List.prefix_append_right_inj] at begins
    refine ⟨below, begins, ?_⟩
    rw [descend_append, reached, descend_of_level fun name member => (level name (begins.subset member)).not_up]

theorem makeFolder_of_locate {path : Path.Parsed} (located : tree.locate path = .ok place) : tree.makeFolder path =
    if (tree.entry? place).isSome then .error .alreadyExists else .ok (tree.put place .folder) := by
  rw [makeFolder, located]
  rfl

/-- A folder is at a path after it is made, or there already, if a path leads there and no file is there. -/
theorem WellFormed.makeFolder_reaches (wellFormed : tree.WellFormed) {path : Path.Parsed}
    (located : tree.locate path = .ok place) (free : ∀ content, tree.entry? place ≠ some (.file content)) :
    (∃ made, tree.makeFolder path = .ok made ∧ made.entry? place = some .folder) ∨
      tree.makeFolder path = .error .alreadyExists ∧ tree.isFolder path = true ∧ tree.entry? place = some .folder := by
  rw [makeFolder_of_locate located]
  cases found : tree.entry? place with
  | none =>
    left
    exact ⟨_, rfl, wellFormed.entry?_put found (wellFormed.housed_of_locate located found) .folder⟩
  | some entry =>
    right
    cases entry with
    | file content => exact absurd found (free content)
    | folder => exact ⟨rfl, isFolder_iff.mpr ⟨place, located, found⟩, rfl⟩

/-- All folders on a way that is not too long are made if no file is in the way. -/
theorem WellFormed.makeFolders_reaches (wellFormed : tree.WellFormed) (located : tree.locate root = .ok here)
    (folder : tree.entry? here = some .folder) (level : ∀ name ∈ names, Path.IsName name)
    (short : ∀ name ∈ names, isTooLong name = false) (brief : isLong (root.append ⟨0, names⟩) = false)
    (clear : ∀ front, front <+: names → ∀ content, tree.entry? (here ++ front) ≠ some (.file content))
    {bound : Nat} (enough : names.length < bound) :
    (tree.makeFolders bound (root.append ⟨0, names⟩)).2 = none ∧
      FileTree.entry? (tree.makeFolders bound (root.append ⟨0, names⟩)).1 (here ++ names) = some .folder := by
  induction bound generalizing names with
  | zero => omega
  | succ bound ih =>
    have way : tree.locate (root.append ⟨0, names⟩) = tree.walk here names :=
      locate_append_of_short rfl brief located
    rcases walk_level tree here level short with reached | ⟨front, rest, split, inner, stuck⟩
    · rw [reached] at way
      rw [FileTree.makeFolders]
      rcases wellFormed.makeFolder_reaches way (clear names List.prefix_rfl) with
        ⟨made, ran, found⟩ | ⟨ran, there, found⟩
      · rw [ran]
        exact ⟨rfl, found⟩
      · rw [ran]
        simp [there, found]
    rcases stuck with ⟨-, missing⟩ | ⟨content, file⟩
    · -- The folder above comes first; it houses this one.
      have nonempty : names ≠ [] := by simp [split, inner]
      have refused : tree.makeFolder (root.append ⟨0, names⟩) = .error .notFound := by
        rw [FileTree.makeFolder, way, missing]
        rfl
      have inside : (root.append ⟨0, names⟩).names ≠ [] := by simp [Path.Parsed.append, nonempty]
      have parent : (root.append ⟨0, names⟩).parent = root.append ⟨0, names.dropLast⟩ := by
        simp [Path.Parsed.append, Path.Parsed.parent, List.dropLast_append_of_ne_nil nonempty]
      have begins := List.dropLast_prefix names
      have fewer : names.dropLast.length < bound := by
        rw [List.length_dropLast]
        have positive := List.length_pos_iff.mpr nonempty
        omega
      have above := ih (fun name member => level name (begins.subset member))
        (fun name member => short name (begins.subset member)) (isLong_of_sublist begins.sublist brief)
        (fun front way => clear front (way.trans begins)) fewer
      have adds := makeFolders_below located folder
        (fun name member => level name (begins.subset member)) bound
      have formed := (wellFormed.makeFolders bound (root.append ⟨0, names.dropLast⟩)).1
      rw [FileTree.makeFolders, refused]
      simp only [inside, if_false, parent]
      generalize tree.makeFolders bound (root.append ⟨0, names.dropLast⟩) = outcome at above adds formed ⊢
      obtain ⟨made, refusal⟩ := outcome
      obtain ⟨rfl, housed⟩ := above
      have again : made.locate (root.append ⟨0, names⟩) = .ok (here ++ names) := by
        have still := locate_of_folders adds.here (fun place => adds.kept place .folder) located
        rw [locate_append_of_short rfl brief still]
        exact walk_of_parent formed level short housed
      have free : ∀ content, made.entry? (here ++ names) ≠ some (.file content) := by
        intro content
        rw [← fileAt_eq_some.ne, adds.fileAt, fileAt_eq_some.ne]
        exact clear names List.prefix_rfl content
      rcases formed.makeFolder_reaches again free with ⟨whole, ran, found⟩ | ⟨ran, there, found⟩
      · simp only [ran]
        exact ⟨trivial, found⟩
      · simp only [ran, there, if_true]
        exact ⟨trivial, found⟩
    · exact absurd file (clear front (split ▸ List.prefix_append front rest) content)

/-! ## Moving a file -/

theorem exists_rename_of_file (sourced : tree.locate source = .ok old) (targeted : tree.locate target = .ok new)
    (file : tree.entry? old = some (.file content)) (apart : ¬ old <+: new) (free : tree.entry? new ≠ some .folder) :
    ∃ moved, tree.rename source target = .ok moved := by
  have differ : old ≠ new := by
    rintro rfl
    exact apart List.prefix_rfl
  have outside : old.isPrefixOf new = false := Bool.eq_false_iff.mpr (apart ∘ List.isPrefixOf_iff_prefix.mp)
  simp only [rename, sourced, targeted, file, differ, outside, bind, Except.bind, if_false, Bool.false_eq_true]
  cases there : tree.entry? new with
  | none => exact ⟨_, rfl⟩
  | some entry =>
    cases entry with
    | folder => exact absurd there free
    | file lost => exact ⟨_, rfl⟩

theorem existsAt_eq_false {path : Path.Parsed} (located : tree.locate path = .ok place) :
    tree.existsAt path = false ↔ tree.entry? place = none := by
  simp only [existsAt, stat, located, bind, Except.bind]
  cases tree.entry? place <;> simp [throw, throwThe, MonadExceptOf.throw, pure, Except.pure, Except.toOption]

/-- A file that is not in its own way can be moved, unless it goes into a folder where its name is taken. -/
theorem exists_move_iff (sourced : tree.locate source = .ok old) (targeted : tree.locate target = .ok new)
    (file : tree.entry? old = some (.file content)) (apart : ¬ old <+: new)
    (below : ∀ place, tree.locate (target.append ⟨0, [source.name]⟩) = .ok place → ¬ old <+: place) :
    (∃ moved, tree.move source target = .ok moved) ↔ (tree.entry? new = some .folder →
      ∃ place, tree.locate (target.append ⟨0, [source.name]⟩) = .ok place ∧ tree.entry? place = none) := by
  have differ : old ≠ new := by
    rintro rfl
    exact apart List.prefix_rfl
  by_cases folder : tree.entry? new = some .folder
  · have into : tree.isFolder target = true := isFolder_iff.mpr ⟨new, targeted, folder⟩
    simp only [move, sourced, targeted, differ, into, folder, decide_false, Bool.false_and, Bool.not_false,
      Bool.true_and, if_true, true_imp_iff, Bool.false_eq_true, if_false]
    constructor
    · rintro ⟨moved, ran⟩
      split at ran
      case isTrue => cases ran
      case isFalse vacant =>
        split at ran
        case h_1 renamed =>
          obtain ⟨_, place, -, -, located, -⟩ := rename_eq_ok renamed
          exact ⟨place, located, (existsAt_eq_false located).mp (Bool.eq_false_iff.mpr vacant)⟩
        case h_2 => cases ran
    · rintro ⟨place, located, vacant⟩
      obtain ⟨moved, renamed⟩ :=
        exists_rename_of_file sourced located file (below place located) (by simp [vacant])
      rw [(existsAt_eq_false located).mpr vacant, renamed]
      exact ⟨moved, rfl⟩
  · have into : tree.isFolder target = false := by
      rw [Bool.eq_false_iff, Ne, isFolder_iff]
      rintro ⟨place, located, found⟩
      cases targeted.symm.trans located
      exact folder found
    obtain ⟨moved, renamed⟩ := exists_rename_of_file sourced targeted file apart folder
    refine iff_of_true ⟨moved, ?_⟩ (fun found => absurd found folder)
    simp [move, sourced, targeted, differ, into, renamed, pure, Except.pure]

end Deadwood.FileTree
