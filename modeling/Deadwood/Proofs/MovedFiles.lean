import Deadwood.Proofs.Cleanup
import Deadwood.Proofs.Selection

/-!
# Where a cleanup puts files

A cleanup makes folders at vacant places and gives files new places.  Followed
place by place, its moves do not get in each other's way as long as the paths
have no steps upwards and none of the files lies in the backup folder: a file
that has been moved stays where it was put, and all others stay where they are.
-/

namespace Deadwood

/-- A place strictly below another. -/
def Path.IsBelow (above place : List Text) : Prop := ∃ rest, rest ≠ [] ∧ place = above ++ rest

theorem Path.isBelow_iff {above place : List Text} : Path.IsBelow above place ↔ above <+: place ∧ place ≠ above := by
  constructor
  · rintro ⟨rest, nonempty, rfl⟩
    exact ⟨List.prefix_append above rest, by simpa using nonempty⟩
  · rintro ⟨⟨rest, rfl⟩, other⟩
    exact ⟨rest, by simpa using other, rfl⟩

instance (above place : List Text) : Decidable (Path.IsBelow above place) :=
  decidable_of_iff _ Path.isBelow_iff.symm

namespace FileTree

variable {tree made moved : FileTree} {here place location old new : Location} {names : List Text}
  {path source target : Path.Parsed} {entry : Entry} {content : FileContent}

/-! ## Paths without steps upwards -/

/-- The names of a rooted path lead to the place that they spell. -/
theorem locate_rooted {slashes : Nat} (rooted : slashes ≠ 0) (level : ∀ name ∈ names, name ≠ Path.up)
    (located : tree.locate ⟨slashes, names⟩ = .ok place) : place = names := by
  have walked := (locate_eq_ok.mp located).2
  rw [namesFromRoot, if_neg rooted] at walked
  rw [walk_eq_descend walked, descend_of_level level, List.nil_append]

/-- A resolved path has no steps upwards. -/
theorem resolve_level (tree : FileTree) (path : Path.Parsed) :
    ∀ name ∈ (tree.resolve path).names, name ≠ Path.up := by
  have level : ∀ stack : List Text, (∀ name ∈ stack, name ≠ Path.up) →
      ∀ name ∈ (tree.namesFromRoot path).foldl (Path.step true) stack, name ≠ Path.up := by
    generalize tree.namesFromRoot path = names
    induction names with
    | nil => exact fun stack level => level
    | cons segment rest ih =>
      intro stack level
      refine ih _ ?_
      simp only [Path.step]
      split
      case isTrue =>
        cases stack with
        | nil => exact level
        | cons last below =>
          simp only [level last List.mem_cons_self, if_false]
          exact fun name member => level name (List.mem_cons_of_mem last member)
      case isFalse other => exact List.forall_mem_cons.mpr ⟨other, level⟩
  intro name member
  exact level [] (by simp) name (List.mem_reverse.mp member)

/-- A walk goes on as before where no folder is gone. -/
theorem walk_of_folders (kept : ∀ place, tree.entry? place = some .folder → made.entry? place = some .folder)
    (walked : tree.walk here names = .ok place) : made.walk here names = .ok place := by
  induction names generalizing here with
  | nil => exact walked
  | cons name rest ih =>
    simp only [walk] at walked ⊢
    split at walked
    case h_1 folder =>
      rw [kept here folder]
      split at walked
      case isTrue => cases walked
      case isFalse short =>
        rw [if_neg short]
        exact ih walked
    case h_2 => cases walked
    case h_3 => cases walked

/-- There are proper names at every place where something stands. -/
theorem WellNamed.isName (wellNamed : tree.WellNamed) (found : tree.entry? place = some entry) :
    ∀ name ∈ place, Path.IsName name := by
  by_cases inside : place = []
  · simp [inside]
  · exact wellNamed.named _ (mem_of_found inside found)

theorem WellFormed.wellNamed (wellFormed : tree.WellFormed)
    (named : ∀ place entry, tree.entry? place = some entry → ∀ name ∈ place, Path.IsName name) :
    tree.WellNamed :=
  ⟨wellFormed, fun item member => named item.1 item.2 (wellFormed.entry?_of_mem member)⟩

/-! ## Folders that are made -/

/-- A tree with more folders, at vacant places of a certain kind. -/
structure Adds (P : Location → Prop) (tree made : FileTree) : Prop where
  here : made.here = tree.here
  kept : ∀ place entry, tree.entry? place = some entry → made.entry? place = some entry
  added : ∀ place entry, made.entry? place = some entry → tree.entry? place = none → entry = .folder ∧ P place

variable {P Q : Location → Prop}

theorem Adds.refl (tree : FileTree) : Adds P tree tree :=
  ⟨rfl, fun _ _ => id, fun place entry found vacant => by simp [vacant] at found⟩

theorem Adds.trans {between : FileTree} (first : Adds P tree between) (second : Adds P between made) :
    Adds P tree made := by
  refine ⟨second.here.trans first.here, ?_, ?_⟩
  · intro place entry found
    exact second.kept place entry (first.kept place entry found)
  intro place entry found vacant
  cases middle : between.entry? place with
  | none => exact second.added place entry found middle
  | some other =>
    have same := second.kept place other middle
    rw [found, Option.some.injEq] at same
    exact first.added place entry (same ▸ middle) vacant

theorem Adds.mono (adds : Adds P tree made) (weaker : ∀ place, P place → Q place) : Adds Q tree made :=
  ⟨adds.here, adds.kept, fun place entry found vacant =>
    (adds.added place entry found vacant).imp_right (weaker place)⟩

theorem adds_put (vacant : tree.entry? location = none) (holds : P location) :
    Adds P tree (tree.put location .folder) := by
  refine ⟨?_, fun place entry found => entry?_put_of_vacant vacant found .folder, ?_⟩
  · simp only [put]
    split <;> rfl
  · intro place entry found missing
    have inside := (entry?_eq_none.mp missing).1
    have member := mem_of_found inside found
    rw [put_of_vacant vacant, List.mem_append, List.mem_singleton, Prod.mk.injEq] at member
    rcases member with before | ⟨rfl, rfl⟩
    · exact absurd rfl ((entry?_eq_none.mp missing).2 _ before)
    · exact ⟨rfl, holds⟩

theorem makeFolder_adds (ran : tree.makeFolder path = .ok made) :
    Adds (· = descend [] (tree.namesFromRoot path)) tree made := by
  obtain ⟨location, located, vacant, rfl⟩ := makeFolder_eq_ok ran
  exact adds_put vacant (walk_eq_descend (locate_eq_ok.mp located).2)

/-- Folders are made on the way down a path only. -/
theorem makeFolders_adds (tree : FileTree) (bound : Nat) (path : Path.Parsed) :
    Adds (fun place => ∃ front, front <+: tree.namesFromRoot path ∧ place = descend [] front) tree
      (tree.makeFolders bound path).1 := by
  induction bound generalizing path with
  | zero => exact .refl tree
  | succ bound ih =>
    simp only [makeFolders]
    split
    case h_1 made outcome =>
      exact (makeFolder_adds outcome).mono fun place here => ⟨_, List.prefix_rfl, here⟩
    case h_3 => exact .refl tree
    case h_2 =>
      split
      · exact .refl tree
      · -- The way down to the folder above is the beginning of the way.
        have front : tree.namesFromRoot path.parent <+: tree.namesFromRoot path := by
          by_cases relative : path.slashes = 0
          · simpa [namesFromRoot, Path.Parsed.parent, relative] using List.dropLast_prefix path.names
          · simpa [namesFromRoot, Path.Parsed.parent, relative] using List.dropLast_prefix path.names
        have above : Adds (fun place => ∃ way, way <+: tree.namesFromRoot path ∧ place = descend [] way)
            tree (tree.makeFolders bound path.parent).1 := by
          refine (ih path.parent).mono ?_
          rintro place ⟨way, begins, here⟩
          exact ⟨way, begins.trans front, here⟩
        split
        case h_1 rest refusal climbed =>
          rw [climbed] at above
          exact above
        case h_2 rest climbed =>
          rw [climbed] at above
          split
          case h_1 made outcome =>
            refine above.trans ((makeFolder_adds outcome).mono fun place here => ⟨_, List.prefix_rfl, ?_⟩)
            rw [here, namesFromRoot, namesFromRoot, above.here]
          case h_2 => exact above

/-! ## Files that are moved -/

/-- A file gets a vacant place, and nothing else changes. -/
theorem WellFormed.entry?_relocate_file (wellFormed : tree.WellFormed)
    (file : tree.entry? old = some (.file content)) (apart : ¬ old <+: new) (vacant : tree.entry? new = none)
    (housed : tree.entry? new.dropLast = some .folder) (place : Location) :
    FileTree.entry? (tree.relocate old new) place =
      if place = new then some (.file content) else if place = old then none else tree.entry? place := by
  have relocated := wellFormed.relocate apart vacant housed
  have places : ∀ item ∈ tree.entries, placeAfter old new item.1 = if item.1 = old then new else item.1 := by
    intro item member
    split
    case isTrue here => simpa [here] using placeAfter_append old new []
    case isFalse other =>
      exact placeAfter_of_outside (wellFormed.not_below (by simp [file]) member other)
  have moves : ∀ place entry, (place, entry) ∈ tree.entries →
      FileTree.entry? (tree.relocate old new) (if place = old then new else place) = some entry := by
    intro place entry member
    rw [← places _ member]
    refine relocated.entry?_of_mem ?_
    rw [entries_relocate]
    exact List.mem_map.mpr ⟨_, member, rfl⟩
  have misses : ∀ place, place ≠ [] →
      (∀ item ∈ tree.entries, (if item.1 = old then new else item.1) ≠ place) →
        FileTree.entry? (tree.relocate old new) place = none := by
    intro place inside elsewhere
    refine entry?_eq_none.mpr ⟨inside, fun item member => ?_⟩
    rw [entries_relocate] at member
    obtain ⟨before, listed, rfl⟩ := List.mem_map.mp member
    rw [places before listed]
    exact elsewhere before listed
  have outside := location_ne_nil file
  by_cases arrives : place = new
  · rw [if_pos arrives, arrives]
    simpa using moves old _ (mem_of_found outside file)
  rw [if_neg arrives]
  by_cases leaves : place = old
  · rw [if_pos leaves, leaves]
    refine misses old outside fun item member => ?_
    split
    case isTrue => exact fun same => arrives (leaves.trans same.symm)
    case isFalse other => exact other
  rw [if_neg leaves]
  cases found : tree.entry? place with
  | none =>
    obtain ⟨inside, free⟩ := entry?_eq_none.mp found
    refine misses place inside fun item member => ?_
    split
    case isTrue => exact Ne.symm arrives
    case isFalse => exact free item member
  | some entry =>
    by_cases inside : place = []
    · simpa [inside] using found
    · simpa [leaves] using moves place entry (mem_of_found inside found)

/-- A renamed file is at its new place, not at the old one, and nothing else changes. -/
theorem WellFormed.rename_file (wellFormed : tree.WellFormed)
    (renamed : tree.rename source target = .ok moved) (sourced : tree.locate source = .ok old)
    (targeted : tree.locate target = .ok new) (file : tree.entry? old = some (.file content))
    (other : old ≠ new) :
    ¬ old <+: new ∧ tree.entry? new ≠ some .folder ∧ ∀ place, moved.entry? place =
      if place = new then some (.file content) else if place = old then none else tree.entry? place := by
  obtain ⟨_, _, entry, located, aimed, found, same | ⟨-, apart, outcome⟩⟩ := rename_eq_ok renamed
  · cases sourced.symm.trans located
    cases targeted.symm.trans aimed
    exact absurd same.1 other
  cases sourced.symm.trans located
  cases targeted.symm.trans aimed
  cases file.symm.trans found
  refine ⟨apart, ?_⟩
  rcases outcome with ⟨rfl, vacant⟩ | ⟨there, taken, rfl, ⟨_, lost, -, rfl⟩ | ⟨folder, -⟩⟩
  · refine ⟨by simp [vacant], ?_⟩
    exact wellFormed.entry?_relocate_file file apart vacant (wellFormed.housed_of_locate targeted vacant)
  · refine ⟨by simp [taken], fun place => ?_⟩
    have inside := location_ne_nil taken
    have member := mem_of_found inside taken
    have empty := wellFormed.not_inside_file taken
    have housed : FileTree.entry? (tree.erase new) new.dropLast = some .folder := by
      rw [entry?_erase (empty _ member)]
      exact wellFormed.housed _ member
    rw [(wellFormed.erase empty).entry?_relocate_file ((entry?_erase other).trans file) apart
      (entry?_erase_self inside) housed place]
    split
    case isTrue => rfl
    case isFalse elsewhere => rw [entry?_erase elsewhere]
  · cases folder

theorem here_of_rename (renamed : tree.rename source target = .ok moved) : moved.here = tree.here := by
  obtain ⟨old, new, entry, -, -, -, ⟨-, rfl⟩ | ⟨-, -, ⟨rfl, -⟩ | ⟨there, -, rfl, -⟩⟩⟩ := rename_eq_ok renamed
  · rfl
  · rfl
  · rfl

end FileTree

namespace Cleanup

open Deadwood.FileTree Deadwood.Path

variable {start tree prepared after : FileTree} {here place : Location} {backup names others : List Text}
  {done : List (List Text)} {root : Path.Parsed} {backupFolder : Text}

/-! ## The places of backups -/

/-- A file at proper names below a folder that is not in the backup folder. -/
structure Eligible (start : FileTree) (here : Location) (backup names : List Text) : Prop where
  named : ∀ name ∈ names, Path.IsName name
  outside : ¬ IsBelow backup names
  file : ∃ content, start.entry? (here ++ names) = some (.file content)

/-- The place of a file's backup: the file's names in the backup folder, or a place in the folder that
stands there. -/
def IsBackup (here : Location) (backup names : List Text) (place : Location) : Prop :=
  place = here ++ backup ++ names ∨ place = here ++ backup ++ names ++ [names.getLastD []]

namespace Eligible

theorem nonempty (eligible : Eligible start here backup names) (folder : start.entry? here = some .folder) :
    names ≠ [] := by
  rintro rfl
  obtain ⟨content, file⟩ := eligible.file
  rw [List.append_nil, folder] at file
  cases file

/-- Files do not lie inside each other. -/
theorem eq_of_append (eligible : Eligible start here backup names) (wellFormed : start.WellFormed)
    {rest : List Text} (other : Eligible start here backup (names ++ rest)) : rest = [] := by
  by_contra inside
  obtain ⟨content, file⟩ := eligible.file
  obtain ⟨held, below⟩ := other.file
  have folder := wellFormed.folder_above below (List.append_assoc here names rest).symm inside
  rw [file] at folder
  cases folder

end Eligible

theorem IsBackup.isBelow (backs : IsBackup here backup names place) (nonempty : names ≠ []) :
    IsBelow (here ++ backup) place := by
  rcases backs with rfl | rfl
  · exact ⟨names, nonempty, rfl⟩
  · exact ⟨names ++ [names.getLastD []], by simp, by simp⟩

/-- The place of an eligible file is none of a backup. -/
theorem Eligible.not_isBelow (eligible : Eligible start here backup names)
    (below : IsBelow (here ++ backup) (here ++ names)) : False := by
  obtain ⟨rest, nonempty, split⟩ := below
  rw [List.append_assoc, List.append_cancel_left_eq] at split
  exact eligible.outside ⟨rest, nonempty, split⟩

/-- Backups of different files are at different places. -/
theorem IsBackup.unique (wellFormed : start.WellFormed) (backs : IsBackup here backup names place)
    (same : IsBackup here backup others place) (eligible : Eligible start here backup names)
    (other : Eligible start here backup others) : names = others := by
  rcases backs with rfl | rfl
  · rcases same with split | split
    · simpa using split
    · simp only [List.append_assoc, List.append_cancel_left_eq] at split
      subst split
      exact absurd (other.eq_of_append wellFormed eligible) (by simp)
  · rcases same with split | split
    · simp only [List.append_assoc, List.append_cancel_left_eq] at split
      subst split
      exact absurd (eligible.eq_of_append wellFormed other) (by simp)
    · simp only [List.append_assoc, List.append_cancel_left_eq] at split
      exact (List.append_inj_left' split rfl)

/-! ## A cleanup under way -/

/-- How far a cleanup has come: folders are still there, the files that are not done are untouched, and
each of the others is where its backup belongs. -/
structure Progress (start tree : FileTree) (here : Location) (backup : List Text)
    (done : List (List Text)) : Prop where
  wellNamed : tree.WellNamed
  workingFolder : tree.here = start.here
  folders : ∀ place, start.entry? place = some .folder → tree.entry? place = some .folder
  waiting : ∀ names, Eligible start here backup names → names ∉ done →
    tree.entry? (here ++ names) = start.entry? (here ++ names)
  moved : ∀ names ∈ done, Eligible start here backup names ∧ ¬ names <+: backup ∧
    tree.entry? (here ++ names) = none ∧ ∃ place content, IsBackup here backup names place ∧
      start.entry? (here ++ names) = some (.file content) ∧ tree.entry? place = some (.file content)

theorem Progress.refl (wellNamed : start.WellNamed) : Progress start start here backup [] :=
  ⟨wellNamed, rfl, fun _ => id, fun _ _ _ => rfl, by simp⟩

/-- Folders on the way to a backup are in nobody's way. -/
theorem Progress.prepare (progress : Progress start tree here backup done) (wellFormed : prepared.WellFormed)
    (adds : Adds (· <+: here ++ backup ++ names) tree prepared)
    (named : ∀ name ∈ here ++ backup ++ names, Path.IsName name) :
    Progress start prepared here backup done := by
  refine ⟨wellFormed.wellNamed ?_, adds.here.trans progress.workingFolder, ?_, ?_, ?_⟩
  · intro place entry found
    cases before : tree.entry? place with
    | none =>
      obtain ⟨-, front⟩ := adds.added place entry found before
      exact fun name member => named name (front.subset member)
    | some other => exact progress.wellNamed.isName before
  · intro place folder
    exact adds.kept place .folder (progress.folders place folder)
  · intro others eligible waits
    have before := progress.waiting others eligible waits
    obtain ⟨content, file⟩ := eligible.file
    rw [file] at before ⊢
    exact adds.kept _ _ before
  · intro others member
    obtain ⟨eligible, apart, gone, place, content, backs, file, stands⟩ := progress.moved others member
    refine ⟨eligible, apart, ?_, place, content, backs, file, adds.kept _ _ stands⟩
    cases found : prepared.entry? (here ++ others) with
    | none => rfl
    | some entry =>
      obtain ⟨-, front⟩ := adds.added _ entry found gone
      rw [List.append_assoc, List.prefix_append_right_inj] at front
      rcases List.prefix_or_prefix_of_prefix front (List.prefix_append backup names) with
        above | ⟨rest, rfl⟩
      · exact absurd above apart
      · by_cases level : rest = []
        · exact absurd (by simp [level]) apart
        · exact absurd ⟨rest, level, rfl⟩ eligible.outside

/-- What the renaming of a file to its backup's place changes: the file, which was untouched, is there and not at its
own place. -/
theorem Progress.places {source target : Path.Parsed} {new : Location}
    (progress : Progress start tree here backup done) (eligible : Eligible start here backup names)
    (folder : start.entry? here = some .folder) (renamed : tree.rename source target = .ok after)
    (sourced : tree.locate source = .ok (here ++ names)) (targeted : tree.locate target = .ok new)
    (backs : IsBackup here backup names new) :
    names ∉ done ∧ ¬ here ++ names <+: new ∧ tree.entry? new ≠ some .folder ∧
      tree.entry? (here ++ names) = start.entry? (here ++ names) ∧
      ∀ place, after.entry? place = if place = new then start.entry? (here ++ names)
        else if place = here ++ names then none else tree.entry? place := by
  obtain ⟨content, file⟩ := eligible.file
  have waits : names ∉ done := by
    intro member
    obtain ⟨_, _, entry, located, -, found, -⟩ := rename_eq_ok renamed
    cases sourced.symm.trans located
    rw [(progress.moved names member).2.2.1] at found
    cases found
  have before := progress.waiting names eligible waits
  have apart : here ++ names ≠ new := by
    rintro rfl
    exact eligible.not_isBelow (backs.isBelow (eligible.nonempty folder))
  obtain ⟨outside, noFolder, places⟩ :=
    progress.wellNamed.rename_file renamed sourced targeted (before.trans file) apart
  rw [← file] at places
  exact ⟨waits, outside, noFolder, before, places⟩

/-- A file that is moved to its backup's place is done. -/
theorem Progress.rename {source target : Path.Parsed} {new : Location} (wellFormed : start.WellFormed)
    (progress : Progress start tree here backup done) (eligible : Eligible start here backup names)
    (folder : start.entry? here = some .folder) (renamed : tree.rename source target = .ok after)
    (sourced : tree.locate source = .ok (here ++ names)) (targeted : tree.locate target = .ok new)
    (backs : IsBackup here backup names new) (named : ∀ name ∈ new, Path.IsName name) :
    Progress start after here backup (names :: done) := by
  have nonempty := eligible.nonempty folder
  obtain ⟨content, file⟩ := eligible.file
  obtain ⟨waits, outside, noFolder, before, places⟩ :=
    progress.places eligible folder renamed sourced targeted backs
  rw [file] at before places
  have apart : here ++ names ≠ new := by
    rintro rfl
    exact outside List.prefix_rfl
  -- No other eligible file stands at the new place, and none at the old one.
  have untouched : ∀ others, Eligible start here backup others → others ≠ names →
      after.entry? (here ++ others) = tree.entry? (here ++ others) := by
    intro others other different
    rw [places, if_neg, if_neg (by simpa using different)]
    rintro rfl
    exact other.not_isBelow (backs.isBelow nonempty)
  refine ⟨(progress.wellNamed.rename renamed).1.wellNamed ?_, (here_of_rename renamed).trans progress.workingFolder,
    ?_, ?_, ?_⟩
  · intro place entry found
    rw [places] at found
    split at found
    case isTrue arrives => exact arrives ▸ named
    case isFalse =>
      split at found
      case isTrue => cases found
      case isFalse => exact progress.wellNamed.isName found
  · intro place found
    have still := progress.folders place found
    rw [places, if_neg, if_neg, still]
    · rintro rfl
      rw [before] at still
      cases still
    · rintro rfl
      exact noFolder still
  · intro others other waiting
    rw [List.mem_cons, not_or] at waiting
    rw [untouched others other waiting.1, progress.waiting others other waiting.2]
  · intro others member
    by_cases same : others = names
    · subst same
      refine ⟨eligible, ?_, ?_, new, content, backs, file, ?_⟩
      · intro above
        apply outside
        rcases backs with rfl | rfl
        · simpa using above.trans (List.prefix_append backup others)
        · simpa using above.trans (List.prefix_append backup _)
      · rw [places, if_neg apart, if_pos rfl]
      · rw [places, if_pos rfl]
    · obtain ⟨other, unrelated, gone, place, held, elsewhere, was, stands⟩ :=
        progress.moved others ((List.mem_cons.mp member).resolve_left same)
      refine ⟨other, unrelated, ?_, place, held, elsewhere, was, ?_⟩
      · rw [untouched others other same, gone]
      · rw [places, if_neg, if_neg, stands]
        · rintro rfl
          exact eligible.not_isBelow (elsewhere.isBelow (other.nonempty folder))
        · rintro rfl
          exact same (elsewhere.unique wellFormed backs other eligible)

section

variable (wellFormed : start.WellFormed) (rooted : root.slashes ≠ 0)
  (folder : start.entry? root.names = some .folder)
  (reads : Path.Parsed.ofText backupFolder = ⟨0, backup⟩) (level : ∀ name ∈ backup, Path.IsName name)

include wellFormed rooted folder reads level

omit reads level in
/-- A file that is moved into the backup folder is done. -/
theorem Progress.move (progress : Progress start tree root.names backup done)
    (eligible : Eligible start root.names backup names)
    (whole : ∀ name ∈ root.names ++ backup ++ names, Path.IsName name)
    (ran : tree.move ⟨root.slashes, root.names ++ names⟩ ⟨root.slashes, root.names ++ backup ++ names⟩ =
      .ok after) : Progress start after root.names backup (names :: done) := by
  have nonempty := eligible.nonempty folder
  obtain ⟨final, renamed, -, which⟩ := move_eq_ok ran
  obtain ⟨old, new, entry, sourced, targeted, -⟩ := rename_eq_ok renamed
  have last : names.getLastD [] ∈ names := by
    rw [List.getLastD_eq_getLast?, List.getLast?_eq_some_getLast nonempty]
    exact List.getLast_mem _
  have came : old = root.names ++ names := by
    refine locate_rooted rooted (fun name member => (whole name ?_).not_up) sourced
    simp only [List.mem_append] at member ⊢
    tauto
  have went : IsBackup root.names backup names new ∧ ∀ name ∈ new, Path.IsName name := by
    rcases which with rfl | rfl
    · have spelled := locate_rooted rooted (fun name member => (whole name member).not_up) targeted
      exact ⟨.inl spelled, spelled ▸ whole⟩
    · have inside : ∀ name ∈ root.names ++ backup ++ names ++ [names.getLastD []], Path.IsName name := by
        intro name member
        rcases List.mem_append.mp member with above | added
        · exact whole name above
        · rw [List.mem_singleton.mp added]
          exact eligible.named _ last
      have spelled : new = root.names ++ backup ++ names ++ [names.getLastD []] := by
        have name : Path.Parsed.name ⟨root.slashes, root.names ++ names⟩ = names.getLastD [] := by
          simp [Path.Parsed.name, List.getLastD_eq_getLast?, List.getLast?_append_of_ne_nil _ nonempty]
        rw [Path.Parsed.append, if_pos rfl, name] at targeted
        exact locate_rooted rooted (fun name member => (inside name member).not_up) targeted
      exact ⟨.inr spelled, spelled ▸ inside⟩
  subst came
  exact progress.rename wellFormed eligible folder renamed sourced targeted went.1 went.2

/-- One more file: it is done if it is moved, and all is as before if not. -/
theorem Progress.moveFile {refusal : Option Text} (progress : Progress start tree root.names backup done)
    (eligible : Eligible start root.names backup names)
    (ran : moveFile tree root backupFolder (Path.join names) = .ok (after, refusal)) :
    Progress start after root.names backup (refusal.elim (names :: done) fun _ => done) := by
  have spelled : Path.Parsed.ofText (Path.join names) = ⟨0, names⟩ :=
    Path.Parsed.ofText_join (isStep_of_names eligible.named)
  have whole : ∀ name ∈ root.names ++ backup ++ names, Path.IsName name := by
    simp only [List.mem_append, or_imp, forall_and]
    exact ⟨⟨progress.wellNamed.isName (progress.folders _ folder), level⟩, eligible.named⟩
  have steps := moveFile_cases ran
  simp only [backupPath, Path.Parsed.append, Path.Parsed.parent, spelled, reads, if_true, ← List.append_assoc] at steps
  have adds := makeFolders_adds tree ((root.names ++ backup ++ names).length + 1)
    ⟨root.slashes, (root.names ++ backup ++ names).dropLast⟩
  have formed := (progress.wellNamed.makeFolders ((root.names ++ backup ++ names).length + 1)
    ⟨root.slashes, (root.names ++ backup ++ names).dropLast⟩).1
  generalize tree.makeFolders ((root.names ++ backup ++ names).length + 1)
    ⟨root.slashes, (root.names ++ backup ++ names).dropLast⟩ = outcome at adds formed steps
  have prepared : Progress start outcome.1 root.names backup done := by
    refine progress.prepare formed (adds.mono ?_) whole
    rintro place ⟨front, begins, rfl⟩
    rw [namesFromRoot, if_neg rooted] at begins
    have way := begins.trans (List.dropLast_prefix _)
    rwa [descend_of_level fun name member => (whole name (way.subset member)).not_up]
  obtain ⟨fault, place, made, refused⟩ | ⟨between, made, ⟨shifted, rfl⟩ | ⟨rfl, refused, -⟩⟩ := steps
  · obtain ⟨reason, rfl⟩ := Option.isSome_iff_exists.mp refused
    rwa [made] at prepared
  · rw [made] at prepared
    exact prepared.move wellFormed rooted folder eligible whole shifted
  · obtain ⟨reason, rfl⟩ := Option.isSome_iff_exists.mp refused
    rwa [made] at prepared

/-- The loop of a cleanup: in the end every file that is listed as moved is done. -/
theorem Progress.moveAll (progress : Progress start tree root.names backup done) {paths moved : List Text}
    (listed : ∀ path ∈ paths, ∃ names, path = Path.join names ∧ Eligible start root.names backup names)
    (ran : (moveAll root backupFolder tree paths).result = .ok (after, moved)) :
    ∃ finished, Progress start after root.names backup finished ∧ done ⊆ finished ∧
      ∀ path ∈ moved, ∃ names ∈ finished, path = Path.join names := by
  induction paths generalizing tree done moved with
  | nil =>
    cases ran
    exact ⟨done, progress, fun _ => id, by simp⟩
  | cons path rest ih =>
    obtain ⟨⟨names, rfl, eligible⟩, later⟩ := List.forall_mem_cons.mp listed
    obtain ⟨next, refusal, more, first, others, rfl⟩ := moveAll_cons_eq_ok.mp ran
    have step := progress.moveFile wellFormed rooted folder reads level eligible first
    obtain ⟨finished, final, grown, all⟩ := ih step later others
    cases refusal with
    | none =>
      obtain ⟨last, before⟩ := List.cons_subset.mp grown
      exact ⟨finished, final, before, List.forall_mem_cons.mpr ⟨⟨names, last, rfl⟩, all⟩⟩
    | some reason => exact ⟨finished, final, grown, all⟩

end

end Cleanup

end Deadwood
