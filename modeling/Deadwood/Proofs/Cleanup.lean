import Deadwood.Cleanup
import Deadwood.Proofs.Move
import Deadwood.Proofs.PathBytes

/-!
# What a cleanup keeps

A cleanup moves files one after the other, and a move onto another file
replaces that file.  The module keeps account of the replaced contents: what
the files held before a cleanup is what they hold afterwards together with
what was replaced.  So contents are lost exactly if all their copies are
replaced, for example by the backup of a file whose earlier backup is still
there.
-/

namespace Deadwood.Cleanup

open FileTree (IsNameable)

variable {tree next after : FileTree} {root : Path.Parsed} {backupFolder path : Text} {rest moved : List Text}
  {refusal : Option Text}

/-! ## The steps of a cleanup -/

theorem checkText_eq_ok {text : Text} : checkText text = .ok () ↔ IsNameable text := by
  rw [← FileTree.nameFault?_eq_none, checkText]
  split
  case h_1 fault found => simp [found, throw, throwThe, MonadExceptOf.throw]
  case h_2 none => simp [none, pure, Except.pure]

/-- What the move of one file can do: the folders for it cannot be made, the file is moved, or it stays. -/
theorem moveFile_cases (ran : moveFile tree root backupFolder path = .ok (next, refusal)) :
    let target := root.append (backupPath backupFolder path)
    (∃ fault place, tree.makeFolders (target.names.length + 1) target.parent = (next, some (fault, place)) ∧
      refusal.isSome = true) ∨
    ∃ prepared, tree.makeFolders (target.names.length + 1) target.parent = (prepared, none) ∧
      (prepared.move (root.append (Path.Parsed.ofText path)) target = .ok next ∧ refusal = none ∨
        next = prepared ∧ refusal.isSome = true ∧
          ∃ reason, prepared.move (root.append (Path.Parsed.ofText path)) target = .error reason) := by
  simp only [moveFile, bind, Outcome.bind_eq_ok] at ran
  obtain ⟨⟨⟩, -, ran⟩ := ran
  split at ran
  case h_1 prepared fault place made =>
    cases ran
    exact .inl ⟨fault, place, made, rfl⟩
  case h_2 prepared made =>
    refine .inr ⟨prepared, made, ?_⟩
    rw [Outcome.bind_eq_ok] at ran
    obtain ⟨⟨⟩, -, ran⟩ := ran
    split at ran
    case h_1 gone shifted =>
      cases ran
      exact .inl ⟨shifted, rfl⟩
    case h_2 reason refused =>
      cases ran
      exact .inr ⟨rfl, rfl, reason, refused⟩

/-- The file that is moved is looked at once the folders for it are made. -/
theorem exists_moveFile (folder : IsNameable (backupPath backupFolder path).parent.toText) (file : IsNameable path)
    (tree : FileTree) (root : Path.Parsed) :
    ∃ next refusal, moveFile tree root backupFolder path = .ok (next, refusal) := by
  simp only [moveFile, checkText_eq_ok.mpr folder, checkText_eq_ok.mpr file, bind, Except.bind]
  split
  · exact ⟨_, _, rfl⟩
  · split
    · exact ⟨_, _, rfl⟩
    · exact ⟨_, _, rfl⟩

theorem isNameable_backup (folder : IsNameable backupFolder) (file : IsNameable path) :
    IsNameable (backupPath backupFolder path).parent.toText := by
  rw [FileTree.isNameable_toText]
  intro name listed
  have among := List.mem_of_mem_dropLast listed
  simp only [backupPath, Path.Parsed.append] at among
  split at among
  case isTrue =>
    rcases List.mem_append.mp among with above | inside
    · exact FileTree.isNameable_properSegments.mpr folder name above
    · exact FileTree.isNameable_properSegments.mpr file name inside
  case isFalse => exact FileTree.isNameable_properSegments.mpr file name among

/-- A file below the root is moved only to a folder that a path can name. -/
theorem isNameable_of_moveFile {outcome : FileTree × Option Text} (relative : (Path.Parsed.ofText path).slashes = 0)
    (given : (Path.Parsed.ofText path).names ≠ []) (ran : moveFile tree root backupFolder path = .ok outcome) :
    IsNameable backupFolder := by
  simp only [moveFile, bind, Outcome.bind_eq_ok] at ran
  obtain ⟨_, checked, -⟩ := ran
  rw [checkText_eq_ok, FileTree.isNameable_toText, backupPath, Path.Parsed.parent, Path.Parsed.append, if_pos relative,
    List.dropLast_append_of_ne_nil given] at checked
  exact FileTree.isNameable_properSegments.mp fun name listed => checked name (List.mem_append_left _ listed)

theorem moveAll_cons (tree : FileTree) (root : Path.Parsed) (backupFolder path : Text) (rest : List Text) :
    (moveAll root backupFolder tree (path :: rest)).result =
      ((moveFile tree root backupFolder path).mapError Failure.fault).bind fun outcome =>
        (moveAll root backupFolder outcome.1 rest).result.map fun later =>
          (later.1, if outcome.2 = none then path :: later.2 else later.2) := by
  rw [moveAll, Noted.result_bind]
  refine Outcome.bind_congr fun (next, refusal) => ?_
  cases refusal with
  | none =>
    rw [Noted.result_bind]
    cases (moveAll root backupFolder next rest).result <;> rfl
  | some reason =>
    rw [Noted.result_bind, Noted.result_note]
    cases (moveAll root backupFolder next rest).result <;> simp [Except.bind, Except.map]

theorem moveAll_cons_eq_ok : (moveAll root backupFolder tree (path :: rest)).result = .ok (after, moved) ↔
    ∃ next refusal more, moveFile tree root backupFolder path = .ok (next, refusal) ∧
      (moveAll root backupFolder next rest).result = .ok (after, more) ∧
      moved = if refusal = none then path :: more else more := by
  simp only [moveAll_cons, Outcome.bind_eq_ok, Outcome.mapError_eq_ok, Outcome.map_eq_ok, Prod.mk.injEq, Prod.exists]
  constructor
  · rintro ⟨next, refusal, ran, final, more, later, rfl, rfl⟩
    exact ⟨next, refusal, more, ran, later, rfl⟩
  · rintro ⟨next, refusal, more, ran, later, rfl⟩
    exact ⟨next, refusal, ran, after, more, later, rfl, rfl⟩

theorem clean_eq_ok {unused : List Text} : (clean tree root unused backupFolder).result = .ok (after, moved) ↔
    (moveAll root backupFolder tree (unused.mergeSort Text.le)).result = .ok (after, moved) := by
  rw [clean, Noted.result_bind, Outcome.bind_eq_ok]
  simp [Except.bind]

/-- Files that a path can name are moved one after the other to the end. -/
theorem exists_moveAll {paths : List Text} (folder : paths ≠ [] → IsNameable backupFolder)
    (files : ∀ path ∈ paths, IsNameable path) (tree : FileTree) (root : Path.Parsed) :
    ∃ after moved, (moveAll root backupFolder tree paths).result = .ok (after, moved) := by
  induction paths generalizing tree with
  | nil => exact ⟨tree, [], rfl⟩
  | cons path rest ih =>
    have folder := folder (List.cons_ne_nil path rest)
    obtain ⟨file, others⟩ := List.forall_mem_cons.mp files
    obtain ⟨next, refusal, ran⟩ := exists_moveFile (isNameable_backup folder file) file tree root
    obtain ⟨after, more, later⟩ := ih (fun _ => folder) others next
    exact ⟨after, _, moveAll_cons_eq_ok.mpr ⟨next, refusal, more, ran, later, rfl⟩⟩

/-- A cleanup of files below the root ends exactly if there are none, or a path can name the backup folder. -/
theorem exists_clean_iff {unused : List Text} (files : ∀ path ∈ unused, IsNameable path ∧
      (Path.Parsed.ofText path).slashes = 0 ∧ (Path.Parsed.ofText path).names ≠ []) :
    (∃ outcome, (clean tree root unused backupFolder).result = .ok outcome) ↔
      (unused ≠ [] → IsNameable backupFolder) := by
  have sorted : ∀ path ∈ unused.mergeSort Text.le, IsNameable path ∧
      (Path.Parsed.ofText path).slashes = 0 ∧ (Path.Parsed.ofText path).names ≠ [] :=
    fun path listed => files path (List.mem_mergeSort.mp listed)
  have nothing : unused = [] ↔ unused.mergeSort Text.le = [] := by
    rw [← List.length_eq_zero_iff, ← List.length_eq_zero_iff, List.length_mergeSort]
  rw [ne_eq, nothing]
  simp only [Prod.exists, clean_eq_ok]
  generalize unused.mergeSort Text.le = paths at sorted
  constructor
  · rintro ⟨after, moved, ran⟩ some
    cases paths with
    | nil => exact absurd rfl some
    | cons path rest =>
      obtain ⟨next, refusal, more, first, -⟩ := moveAll_cons_eq_ok.mp ran
      obtain ⟨-, relative, given⟩ := sorted path List.mem_cons_self
      exact isNameable_of_moveFile relative given first
  · intro folder
    exact exists_moveAll folder (fun path listed => (sorted path listed).1) tree root

/-- Whether files that a path can name are moved to the end does not depend on the tree. -/
theorem moveAll_ends_alike {paths : List Text} (files : ∀ path ∈ paths, IsNameable path) (tree other : FileTree)
    (root : Path.Parsed) : (moveAll root backupFolder tree paths).result.map (fun _ => ()) =
      (moveAll root backupFolder other paths).result.map (fun _ => ()) := by
  induction paths generalizing tree other with
  | nil => rfl
  | cons path rest ih =>
    obtain ⟨file, others⟩ := List.forall_mem_cons.mp files
    simp only [moveAll_cons]
    cases checked : checkText (backupPath backupFolder path).parent.toText with
    | error fault => simp only [moveFile, checked, bind, Except.bind, Except.mapError]
    | ok _ =>
      obtain ⟨next, refusal, ran⟩ := exists_moveFile (checkText_eq_ok.mp checked) file tree root
      obtain ⟨next', refusal', ran'⟩ := exists_moveFile (checkText_eq_ok.mp checked) file other root
      have later := ih others next next'
      simp only [ran, ran', Except.mapError, Except.bind]
      cases first : (moveAll root backupFolder next rest).result with
      | error failure =>
        rw [first] at later
        rw [Outcome.map_eq_error.mp later.symm]
        rfl
      | ok outcome =>
        rw [first] at later
        obtain ⟨_, second, -⟩ := Outcome.map_eq_ok.mp later.symm
        rw [second]
        rfl

theorem clean_ends_alike {unused : List Text} (files : ∀ path ∈ unused, IsNameable path) (tree other : FileTree)
    (root : Path.Parsed) : (clean tree root unused backupFolder).result.map (fun _ => ()) =
      (clean other root unused backupFolder).result.map (fun _ => ()) := by
  have moves : ∀ tree : FileTree, (clean tree root unused backupFolder).result.map (fun _ => ()) =
      (moveAll root backupFolder tree (unused.mergeSort Text.le)).result.map (fun _ => ()) := by
    intro tree
    rw [clean, Noted.result_bind]
    cases (moveAll root backupFolder tree (unused.mergeSort Text.le)).result <;> rfl
  rw [moves tree, moves other]
  exact moveAll_ends_alike (fun path listed => files path (List.mem_mergeSort.mp listed)) tree other root

/-! ## What is lost -/

/-- What the move of one file replaces: another file at its place in the backup folder, once the
folders on the way there are made. -/
def replaced (tree : FileTree) (root : Path.Parsed) (backupFolder path : Text) : List Bytes :=
  let target := root.append (backupPath backupFolder path)
  match tree.makeFolders (target.names.length + 1) target.parent with
  | (prepared, none) => prepared.overwritten (root.append (Path.Parsed.ofText path)) target
  | (_, some _) => []

/-- What is replaced when files are moved one after the other. -/
def replacedAll (root : Path.Parsed) (backupFolder : Text) : FileTree → List Text → List Bytes
  | _, [] => []
  | tree, path :: rest =>
    match moveFile tree root backupFolder path with
    | .ok (next, _) => replaced tree root backupFolder path ++ replacedAll root backupFolder next rest
    | .error _ => []

/-- The move of one file keeps a tree well-formed, and loses only what it replaces. -/
theorem moveFile_keeps (wellFormed : tree.WellFormed)
    (ran : moveFile tree root backupFolder path = .ok (next, refusal)) :
    next.WellFormed ∧ tree.contents.Perm (next.contents ++ replaced tree root backupFolder path) := by
  have steps := moveFile_cases ran
  simp only [replaced] at steps ⊢
  generalize root.append (backupPath backupFolder path) = target at steps ⊢
  have folders := wellFormed.makeFolders (target.names.length + 1) target.parent
  obtain ⟨fault, place, made, -⟩ | ⟨prepared, made, outcome⟩ := steps
  · simp only [made] at folders ⊢
    exact ⟨folders.1, by simp [folders.2]⟩
  · simp only [made] at folders ⊢
    rw [← folders.2]
    obtain ⟨shifted, -⟩ | ⟨rfl, -, reason, refused⟩ := outcome
    · exact folders.1.move shifted
    · exact ⟨folders.1, by simp [folders.1.move_eq_error refused]⟩

/-- Moving files one after the other loses only what is replaced on the way. -/
theorem moveAll_keeps {paths : List Text} (wellFormed : tree.WellFormed)
    (ran : (moveAll root backupFolder tree paths).result = .ok (after, moved)) :
    after.WellFormed ∧ tree.contents.Perm (after.contents ++ replacedAll root backupFolder tree paths) := by
  induction paths generalizing tree moved with
  | nil =>
    cases ran
    exact ⟨wellFormed, by simp [replacedAll]⟩
  | cons path rest ih =>
    obtain ⟨next, refusal, more, first, later, -⟩ := moveAll_cons_eq_ok.mp ran
    obtain ⟨kept, account⟩ := moveFile_keeps wellFormed first
    obtain ⟨final, others⟩ := ih kept later
    refine ⟨final, account.trans ((others.append_right _).trans ?_)⟩
    simp only [replacedAll, first]
    rw [List.append_assoc]
    exact List.perm_append_comm.append_left _

/-- A cleanup ends if the backup folder and the files can be named in a path.  Whenever it ends the tree
is as well-formed as before, and every content that a file had before is still that of a file, exactly if of
no content all copies are replaced on the way. -/
theorem clean_keeps_contents_iff (wellFormed : tree.WellFormed) (root : Path.Parsed) (unused : List Text)
    (backupFolder : Text) :
    ((unused ≠ [] → IsNameable backupFolder) → (∀ path ∈ unused, IsNameable path) →
      ∃ after moved, (clean tree root unused backupFolder).result = .ok (after, moved)) ∧
    ∀ after moved, (clean tree root unused backupFolder).result = .ok (after, moved) →
      after.WellFormed ∧
      ((∀ location content, tree.entry? location = some (.file content) →
          ∃ place kept, after.entry? place = some (.file kept) ∧ kept.bytes = content.bytes) ↔
        ∀ bytes ∈ replacedAll root backupFolder tree (unused.mergeSort Text.le),
          (replacedAll root backupFolder tree (unused.mergeSort Text.le)).count bytes < tree.contents.count bytes) := by
  constructor
  · intro folder files
    have nameable : unused.mergeSort Text.le ≠ [] → IsNameable backupFolder :=
      fun some => folder fun none => some (by simp [none])
    obtain ⟨after, moved, ran⟩ :=
      exists_moveAll nameable (fun path listed => files path (by simpa using listed)) tree root
    exact ⟨after, moved, clean_eq_ok.mpr ran⟩
  intro after moved ran
  obtain ⟨final, account⟩ := moveAll_keeps wellFormed (clean_eq_ok.mp ran)
  generalize replacedAll root backupFolder tree (unused.mergeSort Text.le) = lost at account ⊢
  have counted : ∀ bytes, tree.contents.count bytes = after.contents.count bytes + lost.count bytes := by
    intro bytes
    rw [account.count_eq, List.count_append]
  refine ⟨final, ?_, ?_⟩
  · intro kept bytes gone
    have before : bytes ∈ tree.contents := account.mem_iff.mpr (List.mem_append_right _ gone)
    obtain ⟨location, content, found, rfl⟩ := wellFormed.mem_contents.mp before
    have still := final.mem_contents.mpr (kept location content found)
    have positive := List.count_pos_iff.mpr still
    rw [counted]
    omega
  · intro spared location content found
    rw [← final.mem_contents]
    have before := wellFormed.mem_contents.mpr ⟨location, content, found, rfl⟩
    rcases List.mem_append.mp (account.mem_iff.mp before) with still | gone
    · exact still
    · have fewer := spared content.bytes gone
      rw [counted] at fewer
      exact List.count_pos_iff.mp (by omega)

/-- A project in the folder `p` with an unused script, and in its folder `bk` the backup of an earlier
run. -/
def backedUpTree (earlier : Text) : FileTree where
  here := []
  entries := [([("p" : Text)], .folder), ([("p" : Text), ("src" : Text)], .folder),
    ([("p" : Text), ("src" : Text), ("a.ts" : Text)], .file { bytes := [1] }),
    ([("p" : Text), ("bk" : Text)], .folder), ([("p" : Text), ("bk" : Text), ("src" : Text)], .folder),
    ([("p" : Text), ("bk" : Text), ("src" : Text), earlier], .file { bytes := [2] })]

/-- The folder `p`. -/
def backedUpRoot : Path.Parsed := ⟨1, [("p" : Text)]⟩

/-- The backup of another script stays. -/
theorem clean_keeps_other_backup : (backedUpTree "b.ts").WellFormed ∧
    ∃ after moved, (clean (backedUpTree "b.ts") backedUpRoot ["src/a.ts"] "bk").result = .ok (after, moved) ∧
    ∀ location content, FileTree.entry? (backedUpTree "b.ts") location = some (.file content) →
      ∃ place kept, after.entry? place = some (.file kept) ∧ kept.bytes = content.bytes := by
  have wellFormed : (backedUpTree "b.ts").WellFormed := ⟨by decide, by decide, by decide⟩
  have nothing : replacedAll backedUpRoot "bk" (backedUpTree "b.ts") ["src/a.ts"] = [] := by
    decide +kernel
  obtain ⟨ends, keeps⟩ := clean_keeps_contents_iff wellFormed backedUpRoot ["src/a.ts"] "bk"
  obtain ⟨after, moved, ran⟩ := ends (fun _ => ⟨by decide, by decide⟩) (by
    rw [List.forall_mem_singleton]
    exact ⟨by decide, by decide⟩)
  have kept := (keeps after moved ran).2
  rw [List.mergeSort_singleton, nothing] at kept
  exact ⟨wellFormed, after, moved, ran, kept.mpr (by simp)⟩

/-- The backup of the same script from an earlier run is lost. -/
theorem clean_loses_earlier_backup : (backedUpTree "a.ts").WellFormed ∧
    (∃ location, FileTree.entry? (backedUpTree "a.ts") location = some (.file { bytes := [2] })) ∧
    ∃ after moved, (clean (backedUpTree "a.ts") backedUpRoot ["src/a.ts"] "bk").result = .ok (after, moved) ∧
      ∀ place content, after.entry? place = some (.file content) → content.bytes ≠ [2] := by
  have outcome : (clean (backedUpTree "a.ts") backedUpRoot ["src/a.ts"] "bk").result.toOption.map
      (·.1.contents) = some [[1]] := by
    simp only [clean, List.mergeSort_singleton]
    decide +kernel
  obtain ⟨⟨after, moved⟩, ran, left⟩ := Option.map_eq_some_iff.mp outcome
  refine ⟨⟨by decide, by decide, by decide⟩, ⟨["p", "bk", "src", "a.ts"], by decide⟩, after, moved,
    Outcome.toOption_eq_some.mp ran, ?_⟩
  intro place content found
  have held := FileTree.mem_contents_of_found found
  simp only at left
  rw [left, List.mem_singleton] at held
  simp [held]

end Deadwood.Cleanup
