import Deadwood.FileTree.Move
import Deadwood.Proofs.FileTree

/-!
# What a move keeps

A move gives entries new places and may clear the place that it takes.  The
places stay distinct because nothing stands at or below a vacant place, so a
moved tree is well-formed again.  A move loses only the content of another file
at the place it takes, and such a move is never refused.
-/

namespace Deadwood.FileTree

variable {tree moved : FileTree} {location old new : Location} {entry : Entry} {content : FileContent}
  {source target : Path.Parsed}

/-! ## Clearing a place -/

theorem entry?_erase {place : Location} (other : place ≠ location) :
    FileTree.entry? (tree.erase location) place = tree.entry? place := by
  by_cases inside : place = []
  · simp [inside]
  · have kept : ∀ item : Location × Entry,
        decide (decide (item.1 ≠ location) = true ∧ decide (item.1 = place) = true) =
          decide (item.1 = place) := by
      intro item
      by_cases here : item.1 = place
      · simp [here, other]
      · simp [here]
    simp only [entry?_def, if_neg inside, erase, List.find?_filter, kept]

theorem entry?_erase_self (inside : location ≠ []) :
    FileTree.entry? (tree.erase location) location = none := by
  refine entry?_eq_none.mpr ⟨inside, ?_⟩
  intro item member
  simpa using (List.mem_filter.mp member).2

/-- A place can be cleared if nothing lies inside it. -/
theorem WellFormed.erase (wellFormed : tree.WellFormed)
    (empty : ∀ item ∈ tree.entries, item.1.dropLast ≠ location) : (tree.erase location).WellFormed := by
  refine ⟨?_, ?_, ?_⟩
  · exact wellFormed.distinct.sublist (List.Sublist.map _ List.filter_sublist)
  · intro item member
    exact wellFormed.placed item (List.mem_filter.mp member).1
  · intro item member
    have before := (List.mem_filter.mp member).1
    rw [entry?_erase (empty item before)]
    exact wellFormed.housed item before

/-- Clearing a place takes away what stood there, and nothing else. -/
theorem WellFormed.contents_erase (wellFormed : tree.WellFormed)
    (found : tree.entry? location = some entry) (inside : location ≠ []) :
    tree.contents.Perm
      ((tree.erase location).contents ++ (contentOf (location, entry)).toList) := by
  obtain ⟨before, later, split⟩ := List.append_of_mem (mem_of_found inside found)
  have distinct := wellFormed.distinct
  rw [split, List.map_append, List.map_cons, List.nodup_middle, List.nodup_cons] at distinct
  have others : ∀ item ∈ before ++ later, decide (item.1 ≠ location) = true := by
    intro item member
    apply decide_eq_true
    intro here
    apply distinct.1
    rw [← List.map_append]
    exact List.mem_map.mpr ⟨item, member, here⟩
  have kept : (tree.erase location).entries = before ++ later := by
    rw [FileTree.erase, split, List.filter_append, List.filter_cons_of_neg (by simp), ← List.filter_append,
      List.filter_eq_self.mpr others]
  rw [contents, contents, kept, split, List.filterMap_append, List.filterMap_append]
  cases held : contentOf (location, entry) with
  | none => simp [held]
  | some content =>
    rw [List.filterMap_cons_some held, Option.toList_some]
    exact List.perm_middle.trans (List.perm_append_singleton _ _).symm

/-! ## Giving entries new places -/

/-- The place that an entry has after a relocation. -/
def placeAfter (old new place : Location) : Location :=
  if old.isPrefixOf place then new ++ place.drop old.length else place

theorem entries_relocate : (tree.relocate old new).entries =
    tree.entries.map fun item => (placeAfter old new item.1, item.2) := by
  apply List.map_congr_left
  intro item _
  simp only [placeAfter]
  split <;> rfl

@[simp] theorem contents_relocate : (tree.relocate old new).contents = tree.contents := by
  rw [contents, entries_relocate, List.filterMap_map]
  rfl

@[simp] theorem placeAfter_append (old new names : Location) :
    placeAfter old new (old ++ names) = new ++ names := by
  simp [placeAfter]

theorem placeAfter_of_outside {place : Location} (outside : ¬ old <+: place) :
    placeAfter old new place = place := by
  rw [placeAfter, if_neg]
  simpa using outside

theorem placeAfter_ne_nil {place : Location} (taken : new ≠ []) (inside : place ≠ []) :
    placeAfter old new place ≠ [] := by
  simp only [placeAfter]
  split
  · simp [taken]
  · exact inside

/-- Different entries have different places after a relocation to a vacant place. -/
theorem WellFormed.placeAfter_inj (wellFormed : tree.WellFormed) (vacant : tree.entry? new = none)
    {left right : Location × Entry} (first : left ∈ tree.entries) (second : right ∈ tree.entries)
    (equal : placeAfter old new left.1 = placeAfter old new right.1) : left.1 = right.1 := by
  have free : ∀ item ∈ tree.entries, ∀ names, new ++ names ≠ item.1 := by
    intro item member names split
    have other := (entry?_eq_none.mp vacant).2 item member
    exact wellFormed.not_below (by simp [vacant]) member other ⟨names, split⟩
  by_cases leftInside : old <+: left.1
  · obtain ⟨names, split⟩ := leftInside
    rw [← split, placeAfter_append] at equal
    by_cases rightInside : old <+: right.1
    · obtain ⟨others, split'⟩ := rightInside
      rw [← split', placeAfter_append, List.append_cancel_left_eq] at equal
      rw [← split, ← split', equal]
    · rw [placeAfter_of_outside rightInside] at equal
      exact absurd equal (free right second names)
  · rw [placeAfter_of_outside leftInside] at equal
    by_cases rightInside : old <+: right.1
    · obtain ⟨others, split'⟩ := rightInside
      rw [← split', placeAfter_append] at equal
      exact absurd equal.symm (free left first others)
    · rwa [placeAfter_of_outside rightInside] at equal

/-- Entries can be given a vacant place in a folder that is not inside the old one. -/
theorem WellFormed.relocate (wellFormed : tree.WellFormed) (apart : ¬ old <+: new)
    (vacant : tree.entry? new = none) (housed : tree.entry? new.dropLast = some .folder) :
    (tree.relocate old new).WellFormed := by
  have taken : new ≠ [] := (entry?_eq_none.mp vacant).1
  have outside : old ≠ [] := by
    rintro rfl
    exact apart List.nil_prefix
  have distinct : ((tree.relocate old new).entries.map Prod.fst).Nodup := by
    rw [entries_relocate, List.map_map]
    have places := List.Nodup.of_map _ wellFormed.distinct
    apply places.map_on
    intro left first right second equal
    have same := wellFormed.placeAfter_inj vacant first second equal
    exact List.inj_on_of_nodup_map wellFormed.distinct first second same
  -- A folder is found at its place after the relocation.
  have folders : ∀ place, tree.entry? place = some .folder →
      FileTree.entry? (tree.relocate old new) (placeAfter old new place) = some .folder := by
    intro place found
    by_cases inside : place = []
    · rw [inside, placeAfter_of_outside (by simpa using outside), entry?_nil]
    · apply FileTree.entry?_of_mem distinct (placeAfter_ne_nil taken inside)
      rw [entries_relocate]
      exact List.mem_map.mpr ⟨_, mem_of_found inside found, rfl⟩
  refine ⟨distinct, ?_, ?_⟩
  · intro item member
    rw [entries_relocate] at member
    obtain ⟨before, listed, rfl⟩ := List.mem_map.mp member
    exact placeAfter_ne_nil taken (wellFormed.placed before listed)
  · intro item member
    rw [entries_relocate] at member
    obtain ⟨⟨place, entry⟩, listed, rfl⟩ := List.mem_map.mp member
    have parent := wellFormed.housed _ listed
    by_cases inside : old <+: place
    · obtain ⟨names, rfl⟩ := inside
      rw [placeAfter_append]
      by_cases top : names = []
      · -- The entry itself lies where the new place lies.
        subst top
        have stays : ¬ old <+: new.dropLast := fun below =>
          apart (below.trans (List.dropLast_prefix new))
        have found := folders _ housed
        rw [placeAfter_of_outside stays] at found
        rwa [List.append_nil]
      · have found := folders _ parent
        rwa [List.dropLast_append_of_ne_nil top, placeAfter_append,
          ← List.dropLast_append_of_ne_nil top] at found
    · have stays : ¬ old <+: place.dropLast := fun below =>
        inside (below.trans (List.dropLast_prefix place))
      have found := folders _ parent
      rwa [placeAfter_of_outside stays, ← placeAfter_of_outside inside] at found

/-! ## Renaming and moving -/

/-- What a move to a path destroys: the content of another file that stands there. -/
def overwritten (tree : FileTree) (source target : Path.Parsed) : List Bytes :=
  match tree.locate source, tree.locate target with
  | .ok old, .ok new =>
    match tree.entry? old, tree.entry? new with
    | some (.file _), some (.file content) => if old = new then [] else [content.bytes]
    | _, _ => []
  | _, _ => []

/-- A rename leaves the tree as it is, or moves an entry to a vacant place, or to one that it clears. -/
theorem rename_eq_ok (renamed : tree.rename source target = .ok moved) :
    ∃ old new entry, tree.locate source = .ok old ∧ tree.locate target = .ok new ∧
      tree.entry? old = some entry ∧
      ((old = new ∧ moved = tree) ∨ (old ≠ new ∧ ¬ old <+: new ∧
        ((moved = tree.relocate old new ∧ tree.entry? new = none) ∨
          ∃ there, tree.entry? new = some there ∧ moved = (tree.erase new).relocate old new ∧
            ((∃ held lost, entry = .file held ∧ there = .file lost) ∨
              (entry = .folder ∧ there = .folder ∧ tree.children new = []))))) := by
  simp only [rename, bind, Outcome.bind_eq_ok] at renamed
  obtain ⟨old, sourced, new, targeted, renamed⟩ := renamed
  split at renamed
  case h_1 => cases renamed
  case h_2 entry found =>
    refine ⟨old, new, entry, sourced, targeted, found, ?_⟩
    by_cases equal : old = new
    · rw [if_pos equal] at renamed
      cases renamed
      exact .inl ⟨equal, rfl⟩
    · rw [if_neg equal] at renamed
      split at renamed
      case isTrue => cases renamed
      case isFalse apart =>
        refine .inr ⟨equal, by simpa using apart, ?_⟩
        split at renamed
        case h_1 vacant =>
          cases renamed
          exact .inl ⟨rfl, vacant⟩
        case h_2 held lost there =>
          cases renamed
          exact .inr ⟨_, there, rfl, .inl ⟨held, lost, rfl, rfl⟩⟩
        case h_3 there =>
          split at renamed
          case isTrue empty =>
            cases renamed
            exact .inr ⟨_, there, rfl, .inr ⟨rfl, rfl, empty⟩⟩
          case isFalse => cases renamed
        case h_4 => cases renamed
        case h_5 => cases renamed

namespace WellFormed

theorem not_inside_empty (wellFormed : tree.WellFormed) (empty : tree.children location = []) :
    ∀ item ∈ tree.entries, item.1.dropLast ≠ location := by
  intro item member parent
  obtain ⟨names, name, split⟩ :=
    (List.eq_nil_or_concat item.1).resolve_left (wellFormed.placed item member)
  have child : (name, item.2) ∈ tree.children location := by
    rw [split, List.concat_eq_append, List.dropLast_concat] at parent
    rw [mem_children, ← parent, ← List.concat_eq_append, ← split]
    exact member
  rw [empty] at child
  cases child

/-- Nothing lies inside a file. -/
theorem not_inside_file (wellFormed : tree.WellFormed)
    (file : tree.entry? location = some (.file content)) :
    ∀ item ∈ tree.entries, item.1.dropLast ≠ location := by
  intro item member parent
  have housed := wellFormed.housed item member
  rw [parent, file] at housed
  cases housed

/-- With anything in the tree, something lies directly below the root. -/
theorem children_root_ne_nil (wellFormed : tree.WellFormed) (inside : location ≠ [])
    (found : tree.entry? location = some entry) : tree.children [] ≠ [] := by
  intro empty
  obtain ⟨name, names, rfl⟩ := List.exists_cons_of_ne_nil inside
  obtain ⟨top, highest⟩ : ∃ top, tree.entry? [name] = some top := by
    by_cases alone : names = []
    · exact ⟨entry, alone ▸ found⟩
    · exact ⟨.folder, wellFormed.folder_above found (List.append_cons [] name names) alone⟩
  exact wellFormed.not_inside_empty empty _ (mem_of_found (by simp) highest) rfl

/-- A rename keeps a tree well-formed, and loses only the content that it overwrites. -/
theorem rename (wellFormed : tree.WellFormed)
    (renamed : tree.rename source target = .ok moved) :
    moved.WellFormed ∧ tree.contents.Perm (moved.contents ++ tree.overwritten source target) := by
  obtain ⟨old, new, entry, sourced, targeted, found, same | ⟨other, apart, outcome⟩⟩ :=
    rename_eq_ok renamed
  · obtain ⟨rfl, rfl⟩ := same
    refine ⟨wellFormed, ?_⟩
    have nothing : moved.overwritten source target = [] := by
      simp only [overwritten, sourced, targeted, if_true]
      split <;> rfl
    simp [nothing]
  · rcases outcome with ⟨rfl, vacant⟩ | ⟨there, taken, rfl, kinds⟩
    · have housed := wellFormed.housed_of_locate targeted vacant
      refine ⟨wellFormed.relocate apart vacant housed, ?_⟩
      simp [overwritten, sourced, targeted, vacant]
    · have inside : new ≠ [] := by
        rintro rfl
        rcases kinds with ⟨held, lost, -, rfl⟩ | ⟨-, -, empty⟩
        · simp at taken
        · exact wellFormed.children_root_ne_nil other found empty
      have empty : ∀ item ∈ tree.entries, item.1.dropLast ≠ new := by
        rcases kinds with ⟨held, lost, -, rfl⟩ | ⟨-, -, empty⟩
        · exact wellFormed.not_inside_file taken
        · exact wellFormed.not_inside_empty empty
      have housed : FileTree.entry? (tree.erase new) new.dropLast = some .folder := by
        have member := mem_of_found inside taken
        rw [entry?_erase (empty _ member)]
        exact wellFormed.housed _ member
      refine ⟨(wellFormed.erase empty).relocate apart (entry?_erase_self inside) housed, ?_⟩
      rw [contents_relocate]
      have split := wellFormed.contents_erase taken inside
      rcases kinds with ⟨held, lost, rfl, rfl⟩ | ⟨rfl, rfl, -⟩
      · simpa [overwritten, sourced, targeted, found, taken, other, contentOf] using split
      · simpa [overwritten, sourced, targeted, found, taken, contentOf] using split

end WellFormed

theorem overwritten_of_folder (folder : tree.isFolder target = true) :
    tree.overwritten source target = [] := by
  obtain ⟨new, targeted, there⟩ := isFolder_iff.mp folder
  cases sourced : tree.locate source <;> simp [overwritten, sourced, targeted, there]

theorem overwritten_of_not_exists (vacant : tree.existsAt target = false) :
    tree.overwritten source target = [] := by
  simp only [existsAt, stat, bind] at vacant
  cases targeted : tree.locate target with
  | error fault =>
    cases sourced : tree.locate source <;> simp [overwritten, sourced, targeted]
  | ok new =>
    cases there : tree.entry? new with
    | none =>
      cases sourced : tree.locate source <;> simp [overwritten, sourced, targeted, there]
    | some entry => simp [targeted, Except.bind, there, pure, Except.pure, Except.toOption] at vacant

/-- A move is a rename to the target or, under the old name, into it.  As much is overwritten there as at
the target. -/
theorem move_eq_ok (ran : tree.move source target = .ok moved) :
    ∃ final, tree.rename source final = .ok moved ∧
      tree.overwritten source final = tree.overwritten source target ∧
      (final = target ∨ final = target.append ⟨0, [source.name]⟩) := by
  unfold move at ran
  extract_lets same into final attempt check at ran
  split at ran
  case isTrue => cases ran
  case isFalse =>
    simp only [check] at ran
    split at ran
    case isTrue => cases ran
    case isFalse clear =>
      have renamed : tree.rename source final = .ok moved := by
        simp only [attempt] at ran
        split at ran
        case h_1 outcome =>
          cases ran
          exact outcome
        case h_2 => cases ran
      by_cases entered : into = true
      · have vacant : tree.existsAt final = false := by simpa [entered] using clear
        have folder : tree.isFolder target = true := (Bool.and_eq_true_iff.mp entered).1
        refine ⟨final, renamed, ?_, .inr (if_pos entered)⟩
        rw [overwritten_of_not_exists vacant, overwritten_of_folder folder]
      · have same : final = target := if_neg entered
        exact ⟨final, renamed, by rw [same], .inl same⟩

theorem overwritten_ne_nil (destroys : tree.overwritten source target ≠ []) :
    ∃ old new held lost, tree.locate source = .ok old ∧ tree.locate target = .ok new ∧
      tree.entry? old = some (.file held) ∧ tree.entry? new = some (.file lost) ∧ old ≠ new := by
  simp only [overwritten] at destroys
  split at destroys
  case h_2 => exact absurd rfl destroys
  case h_1 old new sourced targeted =>
    split at destroys
    case h_2 => exact absurd rfl destroys
    case h_1 held lost found there =>
      split at destroys
      case isTrue => exact absurd rfl destroys
      case isFalse other => exact ⟨old, new, held, lost, sourced, targeted, found, there, other⟩

/-- A move to the place of another file is never refused. -/
theorem WellFormed.move_eq_error (wellFormed : tree.WellFormed) {reason : Text}
    (refused : tree.move source target = .error reason) : tree.overwritten source target = [] := by
  by_contra destroys
  obtain ⟨old, new, held, lost, sourced, targeted, found, there, other⟩ := overwritten_ne_nil destroys
  have apart : ¬ old <+: new := by
    rintro ⟨names, rfl⟩
    have nonempty : names ≠ [] := by simpa using other
    have folder := wellFormed.folder_above there rfl nonempty
    rw [found] at folder
    cases folder
  have file : tree.isFolder target = false := by
    simp [isFolder, stat, bind, Except.bind, targeted, there, pure, Except.pure]
  have renamed : tree.rename source target = .ok ((tree.erase new).relocate old new) := by
    simp [FileTree.rename, bind, Except.bind, sourced, targeted, found, there, other, apart, pure,
      Except.pure]
  simp [FileTree.move, sourced, targeted, file, other, renamed, pure, Except.pure] at refused

/-- A move keeps a tree well-formed, and loses only the content that it overwrites. -/
theorem WellFormed.move (wellFormed : tree.WellFormed) (ran : tree.move source target = .ok moved) :
    moved.WellFormed ∧ tree.contents.Perm (moved.contents ++ tree.overwritten source target) := by
  obtain ⟨final, renamed, equal, -⟩ := move_eq_ok ran
  rw [← equal]
  exact wellFormed.rename renamed

end Deadwood.FileTree
