import Deadwood.Proofs.Ways

/-!
# What a cleanup does

After a cleanup every file is accounted for: a file that is listed as moved has
left its place and is where its backup belongs, and every other file holds what
it held.  Files are tried in the order of their paths.  So the folders that are
made for the ones do not change where the backups of later ones belong, as long
as every path is spelled in one way.
-/

namespace Deadwood

namespace Cleanup

open Deadwood.FileTree Deadwood.Path

variable {start tree prepared after : FileTree} {here place : Location} {backup names others : List Text}
  {done tried : List (List Text)} {root : Path.Parsed} {backupFolder : Text}

/-! ## A cleanup and every place -/

/-- The place for the backup of a file: the file's names in the backup folder or, where a folder stands there from the
start, its last name in that folder. -/
def placeOfBackup (start : FileTree) (here : Location) (backup names : List Text) : Location :=
  if start.entry? (here ++ backup ++ names) = some .folder then here ++ backup ++ names ++ [names.getLastD []]
  else here ++ backup ++ names

theorem isBackup_placeOfBackup (start : FileTree) (here : Location) (backup names : List Text) :
    IsBackup here backup names (placeOfBackup start here backup names) := by
  rw [placeOfBackup]
  split
  · exact .inr rfl
  · exact .inl rfl

/-- How far a cleanup has come, place by place: new folders are on the ways to the backups of files that have been
tried, and every place that no file has left or reached holds what it held. -/
structure Course (start tree : FileTree) (here : Location) (backup : List Text) (done tried : List (List Text)) : Prop
    extends Progress start tree here backup done where
  made : ∀ place, tree.entry? place = some .folder →
    start.entry? place = some .folder ∨ ∃ names ∈ tried, place <+: here ++ backup ++ names.dropLast
  arrived : ∀ names ∈ done, tree.fileAt (placeOfBackup start here backup names) = start.fileAt (here ++ names)
  frame : ∀ place, (∀ names ∈ done, place ≠ here ++ names ∧ place ≠ placeOfBackup start here backup names) →
    tree.fileAt place = start.fileAt place

theorem Course.refl (wellNamed : start.WellNamed) : Course start start here backup [] [] :=
  ⟨.refl wellNamed, fun _ => .inl, nofun, fun _ _ => rfl⟩

/-- Every place has been left by a file, or reached by one, or has the file that it had. -/
theorem Course.account (course : Course start tree here backup done tried) (place : Location) :
    (∃ names ∈ done, place = here ++ names ∧ tree.entry? place = none) ∨
    (∃ names ∈ done, place = placeOfBackup start here backup names ∧
      ∃ content, tree.entry? place = some (.file content)) ∨
    tree.fileAt place = start.fileAt place := by
  by_cases left : ∃ names ∈ done, place = here ++ names
  · obtain ⟨names, member, rfl⟩ := left
    exact .inl ⟨names, member, rfl, (course.moved names member).2.2.1⟩
  by_cases reached : ∃ names ∈ done, place = placeOfBackup start here backup names
  · obtain ⟨names, member, rfl⟩ := reached
    obtain ⟨content, file⟩ := (course.moved names member).1.file
    refine .inr (.inl ⟨names, member, rfl, content, ?_⟩)
    rw [← fileAt_eq_some, course.arrived names member, fileAt_eq_some, file]
  · refine .inr (.inr (course.frame place fun names member => ⟨?_, ?_⟩))
    · exact fun same => left ⟨names, member, same⟩
    · exact fun same => reached ⟨names, member, same⟩

/-- A file has come as a backup, or it has been there from the start. -/
theorem Course.file_cases (course : Course start tree here backup done tried) {content : FileContent}
    (found : tree.entry? place = some (.file content)) :
    (∃ names ∈ done, place = placeOfBackup start here backup names) ∨ start.fileAt place = some content := by
  rcases course.account place with ⟨names, -, -, gone⟩ | ⟨names, member, same, -⟩ | kept
  · rw [gone] at found
    cases found
  · exact .inl ⟨names, member, same⟩
  · exact .inr (kept ▸ fileAt_eq_some.mpr found)

/-- The root is where it was. -/
theorem Course.locate (course : Course start tree here backup done tried) (located : start.locate root = .ok here) :
    tree.locate root = .ok here :=
  locate_of_folders course.workingFolder course.folders located

/-- The folders for one more file are made. -/
theorem Course.prepare (course : Course start tree here backup done tried) (wellFormed : prepared.WellFormed)
    (adds : Adds (fun place => ∃ front, front <+: backup ++ names.dropLast ∧ place = here ++ front) tree prepared)
    (named : ∀ name ∈ here ++ backup ++ names, IsName name) :
    Course start prepared here backup done (names :: tried) := by
  have onWay : ∀ place, (∃ front, front <+: backup ++ names.dropLast ∧ place = here ++ front) →
      place <+: here ++ backup ++ names.dropLast := by
    rintro place ⟨front, begins, rfl⟩
    rwa [List.append_assoc, List.prefix_append_right_inj]
  have whole : here ++ backup ++ names.dropLast <+: here ++ backup ++ names := by
    rw [List.prefix_append_right_inj]
    exact List.dropLast_prefix names
  refine ⟨course.toProgress.prepare wellFormed (adds.mono fun place way => (onWay place way).trans whole) named,
    ?_, ?_, ?_⟩
  · intro place folder
    cases before : tree.entry? place with
    | none => exact .inr ⟨names, List.mem_cons_self, onWay place (adds.added place _ folder before).2⟩
    | some entry =>
      have kept := adds.kept place entry before
      rw [folder, Option.some.injEq] at kept
      rw [← kept] at before
      refine (course.made place before).imp_right ?_
      rintro ⟨others, member, way⟩
      exact ⟨others, List.mem_cons_of_mem names member, way⟩
  · intro others member
    rw [adds.fileAt, course.arrived others member]
  · intro place untouched
    rw [adds.fileAt, course.frame place untouched]

/-- A file that is moved to the place for its backup is done. -/
theorem Course.rename {source target : Path.Parsed} (wellFormed : start.WellFormed)
    (course : Course start tree here backup done tried) (eligible : Eligible start here backup names)
    (folder : start.entry? here = some .folder) (renamed : tree.rename source target = .ok after)
    (sourced : tree.locate source = .ok (here ++ names))
    (targeted : tree.locate target = .ok (placeOfBackup start here backup names))
    (named : ∀ name ∈ placeOfBackup start here backup names, IsName name) :
    Course start after here backup (names :: done) tried := by
  have backs := isBackup_placeOfBackup start here backup names
  obtain ⟨waits, outside, noFolder, before, places⟩ :=
    course.toProgress.places eligible folder renamed sourced targeted backs
  have elsewhere : ∀ place, place ≠ here ++ names → place ≠ placeOfBackup start here backup names →
      after.fileAt place = tree.fileAt place := by
    intro place stays misses
    exact fileAt_congr (by rw [places, if_neg misses, if_neg stays])
  refine ⟨course.toProgress.rename wellFormed eligible folder renamed sourced targeted backs named, ?_, ?_, ?_⟩
  · intro place found
    rw [places] at found
    split at found
    case isTrue =>
      obtain ⟨content, file⟩ := eligible.file
      rw [file] at found
      cases found
    case isFalse =>
      split at found
      case isTrue => cases found
      case isFalse => exact course.made place found
  · intro others member
    rcases List.mem_cons.mp member with rfl | earlier
    · exact fileAt_congr (by rw [places, if_pos rfl])
    · obtain ⟨other, -⟩ := course.moved others earlier
      have backed := isBackup_placeOfBackup start here backup others
      rw [elsewhere, course.arrived others earlier]
      · intro same
        rw [same] at backed
        exact eligible.not_isBelow (backed.isBelow (other.nonempty folder))
      · intro same
        rw [same] at backed
        rw [backs.unique wellFormed backed eligible other] at waits
        exact waits earlier
  · intro place untouched
    obtain ⟨⟨stays, misses⟩, others⟩ := List.forall_mem_cons.mp untouched
    rw [elsewhere place stays misses, course.frame place others]

/-! ## One file -/

/-- The path of a file to be moved: it has proper names, is not in the backup folder, and no folder is there. -/
structure Movable (start : FileTree) (here : Location) (backup names : List Text) : Prop where
  nonempty : names ≠ []
  named : ∀ name ∈ names, IsName name
  outside : ¬ IsBelow backup names
  noFolder : start.entry? (here ++ names) ≠ some .folder

/-- What it takes for a file to be moved: it is there, no name and no path is too long, no file is in the way, and if
it goes into a folder then its name is not taken. -/
structure CanMove (start : FileTree) (root : Path.Parsed) (here : Location) (backup names : List Text) : Prop where
  file : start.fileAt (here ++ names) ≠ none
  short : ∀ name ∈ backup ++ names, isTooLong name = false
  brief : isLong (root.append ⟨0, backup ++ names⟩) = false
  clear : ∀ front, front <+: backup ++ names.dropLast → start.fileAt (here ++ front) = none
  room : start.entry? (here ++ backup ++ names) = some .folder →
    start.entry? (here ++ backup ++ names ++ [names.getLastD []]) = none ∧
      isLong (root.append ⟨0, backup ++ names ++ [names.getLastD []]⟩) = false

instance (start : FileTree) (root : Path.Parsed) (here : Location) (backup names : List Text) :
    Decidable (CanMove start root here backup names) :=
  decidable_of_iff (start.fileAt (here ++ names) ≠ none ∧ (∀ name ∈ backup ++ names, isTooLong name = false) ∧
      isLong (root.append ⟨0, backup ++ names⟩) = false ∧
      (∀ front ∈ (backup ++ names.dropLast).inits, start.fileAt (here ++ front) = none) ∧
      (start.entry? (here ++ backup ++ names) = some .folder →
        start.entry? (here ++ backup ++ names ++ [names.getLastD []]) = none ∧
          isLong (root.append ⟨0, backup ++ names ++ [names.getLastD []]⟩) = false))
    ⟨fun ⟨file, short, brief, clear, room⟩ =>
      ⟨file, short, brief, fun front way => clear front ((List.mem_inits _ _).mpr way), room⟩,
      fun can => ⟨can.file, can.short, can.brief,
        fun front way => can.clear front ((List.mem_inits _ _).mp way), can.room⟩⟩

/-- A way into the backup folder meets paths outside only above the backup folder. -/
theorem above_of_way {more : List Text} (outside : ¬ IsBelow backup names) (way : names <+: backup ++ more) :
    names <+: backup := by
  rcases List.prefix_or_prefix_of_prefix way (List.prefix_append backup more) with above | ⟨rest, split⟩
  · exact above
  · by_cases level : rest = []
    · rw [← split, level, List.append_nil]
    · exact absurd ⟨rest, level, split.symm⟩ outside

theorem not_on_way {more : List Text} (outside : ¬ IsBelow backup names) (apart : ¬ names <+: backup) :
    ¬ here ++ names <+: here ++ backup ++ more := by
  rw [List.append_assoc, List.prefix_append_right_inj]
  exact fun way => apart (above_of_way outside way)

/-- A file that is above the backup folder is in its own way. -/
theorem not_above (file : start.fileAt (here ++ names) ≠ none)
    (clear : ∀ front, front <+: backup ++ names.dropLast → start.fileAt (here ++ front) = none) : ¬ names <+: backup :=
  fun above => file (clear names (above.trans (List.prefix_append backup _)))

theorem Movable.eligible (movable : Movable start here backup names) (file : start.fileAt (here ++ names) ≠ none) :
    Eligible start here backup names := by
  obtain ⟨content, held⟩ := Option.ne_none_iff_exists'.mp file
  exact ⟨movable.named, movable.outside, content, fileAt_eq_some.mp held⟩

theorem Movable.whole (movable : Movable start here backup names) (level : ∀ name ∈ backup, IsName name) :
    ∀ name ∈ backup ++ names, IsName name := by
  simp only [List.mem_append, or_imp, forall_and]
  exact ⟨level, movable.named⟩

/-- What the move of one file does: folders are made on the way, and then the file is moved unless that is refused. -/
theorem Movable.moveFile_cases {next : FileTree} {refusal : Option Text} (movable : Movable start here backup names)
    (reads : Parsed.ofText backupFolder = ⟨0, backup⟩)
    (ran : Cleanup.moveFile tree root backupFolder (join names) = .ok (next, refusal)) :
    ∃ bound, backup.length + names.length < bound ∧
    ∃ made, tree.makeFolders bound (root.append ⟨0, backup ++ names.dropLast⟩) = made ∧
      (refusal ≠ none ∧ next = made.1 ∧ (made.2 = none →
          ∀ moved, made.1.move (root.append ⟨0, names⟩) (root.append ⟨0, backup ++ names⟩) ≠ .ok moved) ∨
        refusal = none ∧ made.1.move (root.append ⟨0, names⟩) (root.append ⟨0, backup ++ names⟩) = .ok next) := by
  have spelled : Parsed.ofText (join names) = ⟨0, names⟩ := Parsed.ofText_join (isStep_of_names movable.named)
  have whole : backupPath backupFolder (join names) = ⟨0, backup ++ names⟩ := by
    simp [backupPath, spelled, reads, Parsed.append]
  have parent : (root.append ⟨0, backup ++ names⟩).parent = root.append ⟨0, backup ++ names.dropLast⟩ := by
    simp [Parsed.append, Parsed.parent, ← List.append_assoc, List.dropLast_append_of_ne_nil movable.nonempty]
  have enough : backup.length + names.length < (root.append ⟨0, backup ++ names⟩).names.length + 1 := by
    simp only [Parsed.append, if_true, List.length_append]
    omega
  have steps := Cleanup.moveFile_cases ran
  simp only [whole, parent, spelled] at steps
  refine ⟨_, enough, _, rfl, ?_⟩
  obtain ⟨fault, place, made, refused⟩ | ⟨prepared, made, ⟨shifted, rfl⟩ | ⟨rfl, refused, reason, stays⟩⟩ := steps
  · exact .inl ⟨Option.isSome_iff_ne_none.mp refused, by rw [made], by simp [made]⟩
  · exact .inr ⟨rfl, by rw [made]; exact shifted⟩
  · exact .inl ⟨Option.isSome_iff_ne_none.mp refused, by rw [made], by simp [made, stays]⟩

/-- No file comes to a path outside the backup folder, and a folder only where the backup folder is made. -/
theorem Course.eligible_or_above (course : Course start tree here backup done tried)
    (folder : start.entry? here = some .folder) (movable : Movable start here backup names) {entry : Entry}
    (found : tree.entry? (here ++ names) = some entry) : Eligible start here backup names ∨ names <+: backup := by
  cases entry with
  | file content =>
    left
    refine movable.eligible ?_
    rcases course.file_cases found with ⟨others, member, same⟩ | kept
    · have eligible := (course.moved others member).1
      have below := (isBackup_placeOfBackup start here backup others).isBelow (eligible.nonempty folder)
      rw [← same] at below
      obtain ⟨rest, nonempty, split⟩ := below
      rw [List.append_assoc, List.append_cancel_left_eq] at split
      exact absurd ⟨rest, nonempty, split⟩ movable.outside
    · simp [kept]
  | folder =>
    right
    rcases course.made _ found with old | ⟨others, -, way⟩
    · exact absurd old movable.noFolder
    · rw [List.append_assoc, List.prefix_append_right_inj] at way
      exact above_of_way movable.outside way

/-- A folder at a file's names in the backup folder or below has been there from the start, if no path below has been
tried. -/
theorem Course.folder_from_start (course : Course start tree here backup done (names :: tried))
    (nonempty : names ≠ []) (first : ∀ others ∈ tried, ¬ names <+: others.dropLast) (more : List Text)
    (found : tree.entry? (here ++ backup ++ (names ++ more)) = some .folder) :
    start.entry? (here ++ backup ++ (names ++ more)) = some .folder := by
  rcases course.made _ found with old | ⟨others, member, way⟩
  · exact old
  · rw [List.prefix_append_right_inj] at way
    have begins := (List.prefix_append names more).trans way
    rcases List.mem_cons.mp member with rfl | earlier
    · have shorter := begins.length_le
      rw [List.length_dropLast] at shorter
      have positive := List.length_pos_iff.mpr nonempty
      omega
    · exact absurd begins (first others earlier)

/-- Where a folder is, no file was at the start. -/
theorem Course.no_file_of_folder (course : Course start tree here backup done tried)
    (found : tree.entry? place = some .folder) : start.fileAt place = none := by
  rcases course.account place with ⟨others, -, -, gone⟩ | ⟨others, -, -, content, file⟩ | kept
  · rw [gone] at found
    cases found
  · rw [file] at found
    cases found
  · rw [← kept, fileAt, found]

/-- What is vacant in the backup folder was so at the start. -/
theorem Course.vacant_at_start (course : Course start tree here backup done tried)
    (below : IsBelow (here ++ backup) place) (vacant : tree.entry? place = none) : start.entry? place = none := by
  cases found : start.entry? place with
  | none => rfl
  | some entry =>
    cases entry with
    | folder =>
      rw [course.folders place found] at vacant
      cases vacant
    | file content =>
      rcases course.account place with ⟨others, member, rfl, -⟩ | ⟨others, -, -, held, file⟩ | kept
      · exact absurd below (course.moved others member).1.not_isBelow
      · rw [file] at vacant
        cases vacant
      · rw [fileAt, vacant, fileAt_eq_some.mpr found] at kept
        cases kept

/-! ## Where a file goes -/

theorem forall_concat_last {P : Text → Prop} {front : List Text} (nonempty : names ≠ [])
    (all : ∀ name ∈ front ++ names, P name) : ∀ name ∈ front ++ names ++ [names.getLastD []], P name := by
  have last : names.getLastD [] ∈ names := by
    rw [List.getLastD_eq_getLast?, List.getLast?_eq_some_getLast nonempty]
    exact List.getLast_mem _
  intro name member
  rcases List.mem_append.mp member with above | added
  · exact all name above
  · rw [List.mem_singleton.mp added]
    exact all _ (List.mem_append_right front last)

/-- A file keeps its last name in a folder. -/
theorem append_name (root : Path.Parsed) (backup : List Text) (nonempty : names ≠ []) :
    (root.append ⟨0, backup ++ names⟩).append ⟨0, [(root.append ⟨0, names⟩).name]⟩ =
      root.append ⟨0, backup ++ names ++ [names.getLastD []]⟩ := by
  have last : (root.append ⟨0, names⟩).name = names.getLastD [] := by
    simp [Parsed.name, Parsed.append, List.getLastD_eq_getLast?, List.getLast?_append_of_ne_nil _ nonempty]
  rw [last]
  simp [Parsed.append]

theorem locate_inside (located : tree.locate root = .ok here) (nonempty : names ≠ [])
    (named : ∀ name ∈ backup ++ names, IsName name)
    (found : tree.locate ((root.append ⟨0, backup ++ names⟩).append ⟨0, [(root.append ⟨0, names⟩).name]⟩) = .ok place) :
    place = here ++ backup ++ (names ++ [names.getLastD []]) ∧
      tree.walk here (backup ++ names ++ [names.getLastD []]) = .ok place := by
  rw [append_name root backup nonempty] at found
  obtain ⟨spelled, walked⟩ := locate_below located (forall_concat_last nonempty named) found
  refine ⟨?_, walked⟩
  rw [spelled]
  simp

/-- A file that is not above the backup folder can be moved, unless it goes into a folder where its name is taken. -/
theorem Movable.exists_move_iff {content : FileContent} (movable : Movable start here backup names)
    (level : ∀ name ∈ backup, IsName name) (apart : ¬ names <+: backup) (located : tree.locate root = .ok here)
    (sourced : tree.locate (root.append ⟨0, names⟩) = .ok (here ++ names))
    (aimed : tree.locate (root.append ⟨0, backup ++ names⟩) = .ok (here ++ backup ++ names))
    (file : tree.entry? (here ++ names) = some (.file content)) :
    (∃ moved, tree.move (root.append ⟨0, names⟩) (root.append ⟨0, backup ++ names⟩) = .ok moved) ↔
      (tree.entry? (here ++ backup ++ names) = some .folder → ∃ place, tree.locate
        ((root.append ⟨0, backup ++ names⟩).append ⟨0, [(root.append ⟨0, names⟩).name]⟩) = .ok place ∧
          tree.entry? place = none) := by
  refine FileTree.exists_move_iff sourced aimed file (not_on_way movable.outside apart) fun place found => ?_
  rw [(locate_inside located movable.nonempty (movable.whole level) found).1]
  exact not_on_way movable.outside apart

section

variable (folder : start.entry? here = some .folder) (level : ∀ name ∈ backup, IsName name)

include folder level

/-- What is moved is a file, and it is moved to the place for its backup. -/
theorem Course.move_cases (course : Course start tree here backup done (names :: tried))
    (located : tree.locate root = .ok here) (movable : Movable start here backup names)
    (first : ∀ others ∈ tried, ¬ names <+: others.dropLast)
    (ran : tree.move (root.append ⟨0, names⟩) (root.append ⟨0, backup ++ names⟩) = .ok after) :
    Eligible start here backup names ∧ tree.locate (root.append ⟨0, names⟩) = .ok (here ++ names) ∧
      tree.locate (root.append ⟨0, backup ++ names⟩) = .ok (here ++ backup ++ names) ∧
      ∃ final, tree.rename (root.append ⟨0, names⟩) final = .ok after ∧
        tree.locate final = .ok (placeOfBackup start here backup names) := by
  have named := movable.whole level
  obtain ⟨final, renamed, -, which⟩ := move_eq_ok ran
  obtain ⟨old, new, entry, sourced, targeted, found, outcome⟩ := rename_eq_ok renamed
  obtain ⟨rfl, -⟩ := locate_below located movable.named sourced
  have goes : (new = here ++ backup ++ names ∨ new = here ++ backup ++ names ++ [names.getLastD []] ∧
      tree.entry? (here ++ backup ++ names) = some .folder) ∧
      tree.locate (root.append ⟨0, backup ++ names⟩) = .ok (here ++ backup ++ names) := by
    rcases which with rfl | rfl
    · obtain ⟨spelled, -⟩ := locate_below located named targeted
      rw [← List.append_assoc] at spelled
      exact ⟨.inl spelled, spelled ▸ targeted⟩
    · obtain ⟨spelled, walked⟩ := locate_inside located movable.nonempty named targeted
      have inside := folder_of_walk walked (by simp)
      rw [descend_of_level fun name member => (named name member).not_up, ← List.append_assoc] at inside
      refine ⟨.inr ⟨by simp [spelled], inside⟩, ?_⟩
      obtain ⟨-, middle, aimed, -⟩ := (locate_append rfl).mp targeted
      rw [aimed, (locate_below located named aimed).1, List.append_assoc]
  have backs : IsBackup here backup names new := goes.1.imp_right And.left
  have eligible : Eligible start here backup names := by
    rcases course.eligible_or_above folder movable found with eligible | above
    · exact eligible
    · -- A folder is not moved into itself.
      obtain ⟨rest, nonempty, rfl⟩ := backs.isBelow movable.nonempty
      rcases outcome with ⟨same, -⟩ | ⟨-, apart, -⟩
      · rw [List.append_assoc, List.append_cancel_left_eq] at same
        exact absurd ⟨rest, nonempty, same⟩ movable.outside
      · refine absurd ?_ apart
        rw [List.append_assoc, List.prefix_append_right_inj]
        exact above.trans (List.prefix_append backup rest)
  have lands : new = placeOfBackup start here backup names := by
    obtain ⟨-, -, noFolder, -⟩ := course.toProgress.places eligible folder renamed sourced targeted backs
    rw [placeOfBackup]
    rcases goes.1 with rfl | ⟨rfl, there⟩
    · rw [if_neg]
      exact fun from_start => noFolder (course.folders _ from_start)
    · have from_start := course.folder_from_start movable.nonempty first []
      rw [List.append_nil] at from_start
      rw [if_pos (from_start there)]
  exact ⟨eligible, sourced, goes.2, final, renamed, lands ▸ targeted⟩

theorem Course.move (wellFormed : start.WellFormed) (course : Course start tree here backup done (names :: tried))
    (located : tree.locate root = .ok here) (movable : Movable start here backup names)
    (first : ∀ others ∈ tried, ¬ names <+: others.dropLast)
    (ran : tree.move (root.append ⟨0, names⟩) (root.append ⟨0, backup ++ names⟩) = .ok after) :
    Course start after here backup (names :: done) (names :: tried) := by
  obtain ⟨eligible, sourced, -, final, renamed, targeted⟩ :=
    course.move_cases folder level located movable first ran
  refine course.rename wellFormed eligible folder renamed sourced targeted ?_
  have whole : ∀ name ∈ here ++ backup ++ names, IsName name := by
    simp only [List.mem_append, or_imp, forall_and]
    exact ⟨⟨course.wellNamed.isName (course.folders _ folder), level⟩, movable.named⟩
  rcases isBackup_placeOfBackup start here backup names with there | inside
  · rw [there]
    exact whole
  · rw [inside]
    exact forall_concat_last movable.nonempty whole

/-- A file that is moved could be moved from the start. -/
theorem Course.canMove (course : Course start tree here backup done (names :: tried))
    (located : tree.locate root = .ok here) (movable : Movable start here backup names)
    (first : ∀ others ∈ tried, ¬ names <+: others.dropLast)
    (ran : tree.move (root.append ⟨0, names⟩) (root.append ⟨0, backup ++ names⟩) = .ok after) :
    CanMove start root here backup names := by
  obtain ⟨eligible, sourced, aimed, final, renamed, targeted⟩ :=
    course.move_cases folder level located movable first ran
  have named := movable.whole level
  obtain ⟨spelled, walked⟩ := locate_below located named aimed
  rw [spelled, ← List.append_assoc] at walked
  have backs := isBackup_placeOfBackup start here backup names
  obtain ⟨waits, outside, -, before, -⟩ :=
    course.toProgress.places eligible folder renamed sourced targeted backs
  obtain ⟨content, file⟩ := eligible.file
  have held : start.fileAt (here ++ names) ≠ none := by simp [fileAt_eq_some.mpr file]
  have clear : ∀ front, front <+: backup ++ names.dropLast → start.fileAt (here ++ front) = none := by
    rintro front ⟨rest, split⟩
    have way : backup ++ names = front ++ (rest ++ [names.getLast movable.nonempty]) := by
      rw [← List.append_assoc, split, List.append_assoc, List.dropLast_append_getLast]
    rw [way] at walked
    have found := folder_of_walk walked (by simp)
    rw [descend_of_level fun name member => (named name (way ▸ List.mem_append_left _ member)).not_up] at found
    exact course.no_file_of_folder found
  refine ⟨held, short_of_walk walked, ((locate_append rfl).mp aimed).1, clear, fun there => ?_⟩
  have moves := movable.exists_move_iff level (not_above held clear) located sourced aimed (before.trans file)
  obtain ⟨place, found, vacant⟩ := moves.mp ⟨after, ran⟩ (course.folders _ there)
  have inside := (locate_inside located movable.nonempty named found).1
  constructor
  · rw [List.append_assoc _ names, ← inside]
    exact course.vacant_at_start ⟨names ++ [names.getLastD []], by simp, inside⟩ vacant
  · rw [append_name root backup movable.nonempty] at found
    exact (locate_eq_ok.mp found).1

omit folder in
/-- A file that could be moved from the start can be moved, once the folders for it are made. -/
theorem Course.exists_move (wellFormed : start.WellFormed)
    (course : Course start tree here backup done (names :: tried)) (located : tree.locate root = .ok here)
    (movable : Movable start here backup names) (first : ∀ others ∈ tried, ¬ names <+: others.dropLast)
    (fresh : names ∉ done) (can : CanMove start root here backup names)
    (housed : tree.entry? (here ++ backup ++ names.dropLast) = some .folder) :
    ∃ moved, tree.move (root.append ⟨0, names⟩) (root.append ⟨0, backup ++ names⟩) = .ok moved := by
  have named := movable.whole level
  have eligible := movable.eligible can.file
  obtain ⟨content, file⟩ := eligible.file
  have before := (course.waiting names eligible fresh).trans file
  have sourced : tree.locate (root.append ⟨0, names⟩) = .ok (here ++ names) := by
    rw [locate_append_of_short rfl (isLong_of_sublist (List.sublist_append_right _ _) can.brief) located]
    refine walk_of_parent course.wellNamed.toWellFormed movable.named
      (fun name member => can.short name (List.mem_append_right backup member)) ?_
    rw [← List.dropLast_append_of_ne_nil movable.nonempty]
    exact course.wellNamed.housed _ (mem_of_found (location_ne_nil before) before)
  have aimed : tree.locate (root.append ⟨0, backup ++ names⟩) = .ok (here ++ backup ++ names) := by
    rw [locate_append_of_short rfl can.brief located, List.append_assoc]
    refine walk_of_parent course.wellNamed.toWellFormed named can.short ?_
    rwa [List.dropLast_append_of_ne_nil movable.nonempty, ← List.append_assoc]
  have moves := movable.exists_move_iff level (not_above can.file can.clear) located sourced aimed before
  refine moves.mpr fun there => ?_
  -- The folder has been there from the start, and nothing has come into it.
  have from_start := course.folder_from_start movable.nonempty first
  obtain ⟨vacant, fits⟩ := can.room (by simpa using from_start [] (by simpa using there))
  refine ⟨here ++ backup ++ names ++ [names.getLastD []], ?_, ?_⟩
  · rw [append_name root backup movable.nonempty, locate_append_of_short rfl fits located]
    refine (walk_of_parent course.wellNamed.toWellFormed (forall_concat_last movable.nonempty named)
      (forall_concat_last movable.nonempty can.short) ?_).trans (by simp)
    rwa [List.dropLast_concat, ← List.append_assoc]
  · cases found : tree.entry? (here ++ backup ++ names ++ [names.getLastD []]) with
    | none => rfl
    | some entry =>
      cases entry with
      | folder =>
        rw [List.append_assoc _ names] at found vacant
        rw [from_start _ found] at vacant
        cases vacant
      | file held =>
        rcases course.file_cases found with ⟨others, member, same⟩ | kept
        · have backed := isBackup_placeOfBackup start here backup others
          rw [← same] at backed
          rw [backed.unique wellFormed (.inr rfl) (course.moved others member).1 eligible] at member
          exact absurd member fresh
        · rw [fileAt_eq_some, vacant] at kept
          cases kept

omit level in
/-- No file comes in the way of a file that can be moved. -/
theorem Course.clear (wellFormed : start.WellFormed) (course : Course start tree here backup done tried)
    (movable : Movable start here backup names) (can : CanMove start root here backup names) {front : List Text}
    (way : front <+: backup ++ names.dropLast) (content : FileContent) :
    tree.entry? (here ++ front) ≠ some (.file content) := by
  intro found
  rcases course.file_cases found with ⟨others, member, same⟩ | kept
  · -- The backup of another file lies above that of this one only if the files do so.
    have backed := isBackup_placeOfBackup start here backup others
    rw [← same] at backed
    have above : here ++ backup ++ others <+: here ++ front := by
      rcases backed with there | inside
      · rw [there]
      · rw [inside]
        exact List.prefix_append _ _
    have begins : here ++ front <+: here ++ backup ++ names.dropLast := by
      rwa [List.append_assoc, List.prefix_append_right_inj]
    have nested := above.trans begins
    rw [List.prefix_append_right_inj] at nested
    obtain ⟨rest, split⟩ := nested.trans (List.dropLast_prefix names)
    have level : rest = [] := by
      have eligible := movable.eligible can.file
      rw [← split] at eligible
      exact (course.moved others member).1.eq_of_append wellFormed eligible
    have shorter := nested.length_le
    rw [← split, level, List.append_nil, List.length_dropLast] at shorter
    have positive := List.length_pos_iff.mpr ((course.moved others member).1.nonempty folder)
    omega
  · rw [can.clear front way] at kept
    cases kept

/-! ## A whole cleanup -/

variable (proper : start.WellNamed) (located : start.locate root = .ok here)
  (reads : Parsed.ofText backupFolder = ⟨0, backup⟩)

include proper located reads

/-- One more file: it is done if it can be moved, and otherwise only folders are made. -/
theorem Course.moveFile {next : FileTree} {refusal : Option Text} (course : Course start tree here backup done tried)
    (movable : Movable start here backup names) (first : ∀ others ∈ tried, ¬ names <+: others.dropLast)
    (fresh : names ∉ done) (ran : moveFile tree root backupFolder (join names) = .ok (next, refusal)) :
    (refusal = none ↔ CanMove start root here backup names) ∧
      Course start next here backup (if refusal = none then names :: done else done) (names :: tried) := by
  have begins : backup ++ names.dropLast <+: backup ++ names := by
    rw [List.prefix_append_right_inj]
    exact List.dropLast_prefix names
  have way : ∀ name ∈ backup ++ names.dropLast, IsName name :=
    fun name member => movable.whole level name (begins.subset member)
  have whole : ∀ name ∈ here ++ backup ++ names, IsName name := by
    rw [List.append_assoc, List.forall_mem_append]
    exact ⟨course.wellNamed.isName (course.folders _ folder), movable.whole level⟩
  obtain ⟨bound, enough, made, outcome, steps⟩ := movable.moveFile_cases reads ran
  have adds := makeFolders_below (course.locate located) (course.folders _ folder) way bound
  have formed := (course.wellNamed.makeFolders bound (root.append ⟨0, backup ++ names.dropLast⟩)).1
  rw [outcome] at adds formed
  have prepared := course.prepare formed adds whole
  rcases steps with ⟨stays, rfl, refused⟩ | ⟨rfl, shifted⟩
  · rw [if_neg stays]
    refine ⟨iff_of_false stays fun can => ?_, prepared⟩
    have fewer : (backup ++ names.dropLast).length < bound := by
      rw [List.length_append, List.length_dropLast]
      omega
    have reaches := course.wellNamed.makeFolders_reaches (course.locate located) (course.folders _ folder) way
      (fun name member => can.short name (begins.subset member)) (isLong_of_sublist begins.sublist can.brief)
      (fun front goes => course.clear folder proper.toWellFormed movable can goes) fewer
    rw [outcome, ← List.append_assoc] at reaches
    obtain ⟨moved, shifted⟩ :=
      prepared.exists_move level proper.toWellFormed (prepared.locate located) movable first fresh can reaches.2
    exact refused reaches.1 moved shifted
  · rw [if_pos rfl]
    exact ⟨iff_of_true rfl (prepared.canMove folder level (prepared.locate located) movable first shifted),
      prepared.move folder level proper.toWellFormed (prepared.locate located) movable first shifted⟩

/-- The loop of a cleanup: the files that can be moved are done in the end, and they are listed. -/
theorem Course.moveAll (course : Course start tree here backup done tried) {paths moved : List Text}
    (movable : ∀ path ∈ paths, Movable start here backup (segments path))
    (first : ∀ path ∈ paths, ∀ others ∈ tried, ¬ segments path <+: others.dropLast)
    (fresh : ∀ path ∈ paths, segments path ∉ done)
    (ordered : paths.Pairwise fun earlier later =>
      segments later ≠ segments earlier ∧ ¬ segments later <+: (segments earlier).dropLast)
    (ran : (moveAll root backupFolder tree paths).result = .ok (after, moved)) :
    ∃ finished attempted, Course start after here backup finished attempted ∧ moved.Sublist paths ∧
      (∀ path ∈ paths, path ∈ moved ↔ CanMove start root here backup (segments path)) ∧
      (∀ names, names ∈ finished ↔ names ∈ done ∨ ∃ path ∈ moved, names = segments path) := by
  induction paths generalizing tree done tried moved with
  | nil =>
    cases ran
    exact ⟨done, tried, course, .slnil, nofun, by simp⟩
  | cons path rest ih =>
    obtain ⟨here_movable, movable⟩ := List.forall_mem_cons.mp movable
    obtain ⟨here_first, first⟩ := List.forall_mem_cons.mp first
    obtain ⟨here_fresh, fresh⟩ := List.forall_mem_cons.mp fresh
    obtain ⟨later, ordered⟩ := List.pairwise_cons.mp ordered
    obtain ⟨next, refusal, more, outcome, others, rfl⟩ := moveAll_cons_eq_ok.mp ran
    rw [← join_segments path] at outcome
    obtain ⟨can, course⟩ :=
      course.moveFile folder level proper located reads here_movable here_first here_fresh outcome
    have tries : ∀ other ∈ rest, ∀ others ∈ segments path :: tried, ¬ segments other <+: others.dropLast := by
      intro other member
      exact List.forall_mem_cons.mpr ⟨(later other member).2, first other member⟩
    have once : path ∉ rest := fun member => (later path member).1 rfl
    split at course
    case isTrue moves =>
      have fresher : ∀ other ∈ rest, segments other ∉ segments path :: done := by
        intro other member
        exact List.not_mem_cons_of_ne_of_not_mem (later other member).1 (fresh other member)
      obtain ⟨finished, attempted, final, listed, decided, all⟩ := ih course movable tries fresher ordered others
      rw [if_pos moves]
      refine ⟨finished, attempted, final, listed.cons_cons path, ?_, ?_⟩
      · refine List.forall_mem_cons.mpr ⟨iff_of_true List.mem_cons_self (can.mp moves), fun other member => ?_⟩
        have different : other ≠ path := fun same => once (same ▸ member)
        rw [List.mem_cons, or_iff_right different, decided other member]
      · intro names
        simp only [all, List.mem_cons, exists_eq_or_imp]
        rw [or_assoc, or_left_comm]
    case isFalse stays =>
      obtain ⟨finished, attempted, final, listed, decided, all⟩ := ih course movable tries fresh ordered others
      rw [if_neg stays]
      refine ⟨finished, attempted, final, listed.cons path, ?_, all⟩
      exact List.forall_mem_cons.mpr
        ⟨iff_of_false (fun member => once (listed.subset member)) (mt can.mpr stays), decided⟩

end

/-- A path that comes later in the order does not lead above an earlier one. -/
theorem not_above_of_lt {earlier later : Text} (increases : Text.compare earlier later = .lt) :
    segments later ≠ segments earlier ∧ ¬ segments later <+: (segments earlier).dropLast := by
  have apart : ¬ segments later <+: segments earlier := by
    rintro ⟨rest, split⟩
    have begins : ∃ more, earlier = later ++ more := by
      by_cases same : rest = []
      · refine ⟨[], ?_⟩
        rw [← join_segments earlier, ← split, same, List.append_nil, List.append_nil, join_segments]
      · refine ⟨slash :: join rest, ?_⟩
        have joined := join_append (Text.splitOn_ne_nil slash later) same
        rwa [← segments, split, join_segments, join_segments] at joined
    obtain ⟨more, rfl⟩ := begins
    rw [Text.compare_eq_lt] at increases
    exact absurd (Text.le_iff.mp (Text.le_append later more)) (not_le.mpr increases)
  exact ⟨fun same => apart (same ▸ List.prefix_rfl), fun way => apart (way.trans (List.dropLast_prefix _))⟩

/-- A place outside the backup folder has the file that it had, unless it has been left. -/
theorem Course.kept_outside (course : Course start tree here backup done tried)
    (folder : start.entry? here = some .folder) (unleft : ∀ names ∈ done, place ≠ here ++ names)
    (outside : ¬ IsBelow (here ++ backup) place) : tree.fileAt place = start.fileAt place := by
  refine course.frame place fun names member => ⟨unleft names member, ?_⟩
  rintro rfl
  exact outside ((isBackup_placeOfBackup start here backup names).isBelow
    ((course.moved names member).1.nonempty folder))

variable {unused : List Text}

/-- A project in the folder `p` with three scripts, and in its folder `bk` a folder with the name of one of them. -/
def strewnTree : FileTree where
  here := []
  entries := [([("p" : Text)], .folder), ([("p" : Text), ("a.ts" : Text)], .file { bytes := [1] }),
    ([("p" : Text), ("b.ts" : Text)], .file { bytes := [2] }),
    ([("p" : Text), ("c.ts" : Text)], .file { bytes := [3] }),
    ([("p" : Text), ("bk" : Text)], .folder), ([("p" : Text), ("bk" : Text), ("b.ts" : Text)], .folder)]

/-- A project in the folder `p` with a script. -/
def twiceSpelledTree : FileTree where
  here := []
  entries := [([("p" : Text)], .folder), ([("p" : Text), ("src" : Text)], .folder),
    ([("p" : Text), ("src" : Text), ("a.ts" : Text)], .file { bytes := [1] })]

end Cleanup

end Deadwood
