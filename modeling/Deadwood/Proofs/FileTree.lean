import Mathlib.Data.List.Basic
import Mathlib.Data.List.Nodup
import Mathlib.Data.List.Infix
import Deadwood.FileTree.Basic
import Deadwood.Proofs.Outcome

/-!
# Well-formed file trees

A well-formed tree has at most one entry at a location, and every entry lies in
a folder, as in every file system.  So what stands above an entry is a folder,
and where no folder stands there is nothing below.  What a tree holds is seen
through `contents`.  Making folders keeps a tree well-formed and its contents
as they are.
-/

namespace Deadwood.FileTree

variable {tree made : FileTree} {location : Location} {entry : Entry} {content : FileContent}

/-! ## Entries -/

/-- No two entries stand at one location, none at the root, and each lies in a folder. -/
structure WellFormed (tree : FileTree) : Prop where
  distinct : (tree.entries.map Prod.fst).Nodup
  placed : ∀ item ∈ tree.entries, item.1 ≠ []
  housed : ∀ item ∈ tree.entries, tree.entry? item.1.dropLast = some .folder

instance (tree : FileTree) : Decidable tree.WellFormed :=
  decidable_of_iff ((tree.entries.map Prod.fst).Nodup ∧ (∀ item ∈ tree.entries, item.1 ≠ []) ∧
      ∀ item ∈ tree.entries, tree.entry? item.1.dropLast = some .folder)
    ⟨fun ⟨distinct, placed, housed⟩ => ⟨distinct, placed, housed⟩,
      fun wellFormed => ⟨wellFormed.distinct, wellFormed.placed, wellFormed.housed⟩⟩

theorem entry?_def (tree : FileTree) (location : Location) :
    tree.entry? location = if location = [] then some .folder
      else (tree.entries.find? (·.1 = location)).map (·.2) := rfl

@[simp] theorem entry?_nil (tree : FileTree) : tree.entry? [] = some .folder := by
  simp [entry?_def]

theorem mem_of_found (inside : location ≠ []) (found : tree.entry? location = some entry) :
    (location, entry) ∈ tree.entries := by
  rw [entry?_def, if_neg inside] at found
  obtain ⟨⟨place, other⟩, hit, rfl⟩ := Option.map_eq_some_iff.mp found
  have here : place = location := by simpa using List.find?_some hit
  subst here
  exact List.mem_of_find?_eq_some hit

theorem entry?_eq_none : tree.entry? location = none ↔
    location ≠ [] ∧ ∀ item ∈ tree.entries, item.1 ≠ location := by
  by_cases inside : location = []
  · simp [inside]
  · simp [entry?_def, inside]

theorem entry?_of_mem (distinct : (tree.entries.map Prod.fst).Nodup) (inside : location ≠ [])
    (member : (location, entry) ∈ tree.entries) : tree.entry? location = some entry := by
  cases found : tree.entry? location with
  | none => exact absurd rfl ((entry?_eq_none.mp found).2 _ member)
  | some other =>
    have both := mem_of_found inside found
    have same := List.inj_on_of_nodup_map distinct both member rfl
    rw [Prod.mk.injEq] at same
    rw [same.2]

namespace WellFormed

theorem entry?_of_mem (wellFormed : tree.WellFormed) (member : (location, entry) ∈ tree.entries) :
    tree.entry? location = some entry :=
  FileTree.entry?_of_mem wellFormed.distinct (wellFormed.placed _ member) member

/-- What lies above an entry are folders. -/
theorem folder_above (wellFormed : tree.WellFormed) {below : Location} {names : List Text}
    (found : tree.entry? below = some entry) (above : below = location ++ names)
    (nonempty : names ≠ []) : tree.entry? location = some .folder := by
  induction names using List.reverseRecOn generalizing below entry with
  | nil => exact absurd rfl nonempty
  | append_singleton names name ih =>
    have inside : below ≠ [] := by simp [above]
    have housed := wellFormed.housed _ (mem_of_found inside found)
    have parent : below.dropLast = location ++ names := by
      rw [above, ← List.append_assoc, List.dropLast_concat]
    rw [parent] at housed
    by_cases last : names = []
    · simpa [last] using housed
    · exact ih housed rfl last

/-- A folder lies below folders only. -/
theorem folder_of_append (wellFormed : tree.WellFormed) {names : List Text}
    (folder : tree.entry? (location ++ names) = some .folder) : tree.entry? location = some .folder := by
  by_cases here : names = []
  · simpa [here] using folder
  · exact wellFormed.folder_above folder rfl here

/-- Below a location where no folder stands there is nothing. -/
theorem not_below (wellFormed : tree.WellFormed) (vacant : tree.entry? location ≠ some .folder)
    {item : Location × Entry} (member : item ∈ tree.entries) (other : item.1 ≠ location) :
    ¬ location <+: item.1 := by
  rintro ⟨names, split⟩
  have found := wellFormed.entry?_of_mem member
  apply vacant
  apply wellFormed.folder_above found split.symm
  rintro rfl
  exact other (by simpa using split.symm)

end WellFormed

/-! ## Walks -/

/-- A walk ends where it starts, or just above or inside a folder. -/
theorem walk_eq_ok {start : Location} {names : List Text}
    (walked : tree.walk start names = .ok location) :
    location = start ∨ ∃ folder, tree.entry? folder = some .folder ∧
      (location = folder.dropLast ∨ ∃ name, location = folder ++ [name]) := by
  induction names generalizing start with
  | nil =>
    cases walked
    exact .inl rfl
  | cons name rest ih =>
    simp only [walk] at walked
    split at walked
    case h_1 folder =>
      split at walked
      case isTrue => cases walked
      case isFalse =>
        rcases ih walked with rfl | later
        · refine .inr ⟨start, folder, ?_⟩
          split
          · exact .inl rfl
          · exact .inr ⟨name, rfl⟩
        · exact .inr later
    case h_2 => cases walked
    case h_3 => cases walked

/-- A path that is not too long leads where its names do. -/
theorem locate_eq_ok {path : Path.Parsed} : tree.locate path = .ok location ↔
    isLong path = false ∧ tree.walk [] (tree.namesFromRoot path) = .ok location := by
  rw [locate]
  cases isLong path <;> simp [throw, throwThe, MonadExceptOf.throw]

/-- A vacant place that a path leads to lies in a folder. -/
theorem WellFormed.housed_of_locate (wellFormed : tree.WellFormed) {path : Path.Parsed}
    (located : tree.locate path = .ok location) (vacant : tree.entry? location = none) :
    tree.entry? location.dropLast = some .folder := by
  rcases walk_eq_ok (locate_eq_ok.mp located).2 with rfl | ⟨folder, found, rfl | ⟨name, rfl⟩⟩
  · simp at vacant
  · by_cases inside : folder = []
    · simp [inside] at vacant
    · simp [wellFormed.housed _ (mem_of_found inside found)] at vacant
  · rwa [List.dropLast_concat]

theorem stat_eq_ok {path : Path.Parsed} : tree.stat path = .ok entry ↔
    ∃ place, tree.locate path = .ok place ∧ tree.entry? place = some entry := by
  simp only [stat, bind, Outcome.bind_eq_ok]
  constructor
  · rintro ⟨place, leads, found⟩
    refine ⟨place, leads, ?_⟩
    split at found
    case h_1 stands =>
      cases found
      exact stands
    case h_2 => cases found
  · rintro ⟨place, leads, stands⟩
    exact ⟨place, leads, by simp [stands, pure, Except.pure]⟩

theorem file_eq_ok {path : Path.Parsed} : tree.file path = .ok content ↔ tree.stat path = .ok (.file content) := by
  simp only [file, bind, Outcome.bind_eq_ok]
  constructor
  · rintro ⟨entry, status, found⟩
    cases entry with
    | folder => cases found
    | file other =>
      cases found
      exact status
  · intro status
    exact ⟨_, status, rfl⟩

theorem content_of_file {path : Path.Parsed} (stored : tree.file path = .ok content) :
    tree.content path = if content.isReadable then .ok content.bytes else .error .denied := by
  rw [FileTree.content, stored]
  rfl

theorem content_eq_ok {path : Path.Parsed} {bytes : Bytes} : tree.content path = .ok bytes ↔
    ∃ content, tree.stat path = .ok (.file content) ∧ content.isReadable = true ∧ content.bytes = bytes := by
  simp only [FileTree.content, bind, Outcome.bind_eq_ok, file_eq_ok]
  constructor
  · rintro ⟨content, status, read⟩
    split at read
    case isTrue readable =>
      cases read
      exact ⟨content, status, readable, rfl⟩
    case isFalse => cases read
  · rintro ⟨content, status, readable, rfl⟩
    exact ⟨content, status, by simp [readable, pure, Except.pure]⟩

theorem isFolder_iff {path : Path.Parsed} : tree.isFolder path = true ↔
    ∃ location, tree.locate path = .ok location ∧ tree.entry? location = some .folder := by
  rw [← stat_eq_ok, isFolder]
  split
  case h_1 status => simp [status]
  case h_2 other => simpa using other

/-! ## What lies in a folder -/

theorem children_eq (tree : FileTree) (location : Location) : tree.children location =
    tree.entries.filterMap fun item =>
      if item.1.dropLast = location then item.1.getLast?.map (·, item.2) else none := by
  apply List.filterMap_congr
  rintro ⟨place, entry⟩ -
  by_cases inside : place.dropLast = location
  · by_cases root : place = []
    · simp [root]
    · have depth : place.length = location.length + 1 := by
        rw [← inside, List.length_dropLast, Nat.sub_add_cancel (List.length_pos_of_ne_nil root)]
      simp [inside, depth]
  · simp [inside]

theorem mem_children {name : Text} :
    (name, entry) ∈ tree.children location ↔ (location ++ [name], entry) ∈ tree.entries := by
  rw [children_eq, List.mem_filterMap]
  constructor
  · rintro ⟨⟨place, other⟩, listed, found⟩
    split at found
    case isFalse => cases found
    case isTrue inside =>
      obtain ⟨last, ends, same⟩ := Option.map_eq_some_iff.mp found
      cases same
      rw [← inside, List.dropLast_append_getLast? name ends]
      exact listed
  · intro listed
    exact ⟨_, listed, by simp⟩

theorem mem_foldersBelow {names : List Text} :
    names ∈ tree.foldersBelow location ↔ names ≠ [] ∧ (location ++ names, .folder) ∈ tree.entries := by
  rw [foldersBelow, List.mem_filterMap]
  constructor
  · rintro ⟨⟨place, entry⟩, listed, found⟩
    simp only at found
    split at found
    case isFalse => cases found
    case isTrue inside =>
      cases found
      simp only [Bool.and_eq_true, decide_eq_true_eq, List.isPrefixOf_iff_prefix] at inside
      obtain ⟨⟨rfl, rest, rfl⟩, longer⟩ := inside
      rw [List.drop_left]
      exact ⟨by rintro rfl; simp at longer, listed⟩
  · rintro ⟨nonempty, listed⟩
    exact ⟨_, listed, by simp [List.length_pos_of_ne_nil nonempty]⟩

/-! ## Contents -/

/-- The bytes of an entry, if it is a file. -/
def contentOf (item : Location × Entry) : Option Bytes :=
  match item.2 with
  | .file content => some content.bytes
  | .folder => none

/-- The contents of all files, one for each file. -/
def contents (tree : FileTree) : List Bytes := tree.entries.filterMap contentOf

theorem mem_contents_of_found (found : tree.entry? location = some (.file content)) :
    content.bytes ∈ tree.contents := by
  have inside : location ≠ [] := by
    rintro rfl
    simp at found
  exact List.mem_filterMap.mpr ⟨(location, .file content), mem_of_found inside found, rfl⟩

theorem WellFormed.mem_contents (wellFormed : tree.WellFormed) {bytes : Bytes} : bytes ∈ tree.contents ↔
    ∃ location content, tree.entry? location = some (.file content) ∧ content.bytes = bytes := by
  constructor
  · intro held
    obtain ⟨⟨place, entry⟩, member, holds⟩ := List.mem_filterMap.mp held
    cases entry with
    | folder => cases holds
    | file other =>
      cases holds
      exact ⟨place, other, wellFormed.entry?_of_mem member, rfl⟩
  · rintro ⟨location, content, found, rfl⟩
    exact mem_contents_of_found found

/-! ## Making folders -/

theorem put_of_vacant (vacant : tree.entry? location = none) (entry : Entry) :
    (tree.put location entry).entries = tree.entries ++ [(location, entry)] := by
  have free : tree.entries.any (·.1 = location) = false := by
    simpa using (entry?_eq_none.mp vacant).2
  simp [put, free]

theorem entry?_put_of_vacant (vacant : tree.entry? location = none) {place : Location}
    (found : tree.entry? place = some entry) (other : Entry) :
    FileTree.entry? (tree.put location other) place = some entry := by
  by_cases inside : place = []
  · simpa [inside] using found
  · rw [entry?_def, if_neg inside] at found ⊢
    rw [put_of_vacant vacant, List.find?_append]
    obtain ⟨item, hit, rfl⟩ := Option.map_eq_some_iff.mp found
    simp [hit]

theorem entry?_put_of_ne (vacant : tree.entry? location = none) {place : Location} (other : place ≠ location) :
    FileTree.entry? (tree.put location entry) place = tree.entry? place := by
  simp [entry?_def, put_of_vacant vacant, List.find?_append, Ne.symm other]

theorem WellFormed.put (wellFormed : tree.WellFormed) (vacant : tree.entry? location = none)
    (housed : tree.entry? location.dropLast = some .folder) (entry : Entry) :
    (tree.put location entry).WellFormed := by
  obtain ⟨inside, free⟩ := entry?_eq_none.mp vacant
  have entries := put_of_vacant vacant entry
  refine ⟨?_, ?_, ?_⟩
  · rw [entries, List.map_append, List.nodup_append]
    refine ⟨wellFormed.distinct, by simp, ?_⟩
    simpa using free
  · intro item member
    rcases List.mem_append.mp (entries ▸ member) with before | added
    · exact wellFormed.placed item before
    · rw [List.mem_singleton.mp added]
      exact inside
  · intro item member
    rcases List.mem_append.mp (entries ▸ member) with before | added
    · exact entry?_put_of_vacant vacant (wellFormed.housed item before) entry
    · rw [List.mem_singleton.mp added]
      exact entry?_put_of_vacant vacant housed entry

theorem WellFormed.entry?_put (wellFormed : tree.WellFormed) (vacant : tree.entry? location = none)
    (housed : tree.entry? location.dropLast = some .folder) (entry : Entry) :
    FileTree.entry? (tree.put location entry) location = some entry := by
  refine (wellFormed.put vacant housed entry).entry?_of_mem ?_
  rw [put_of_vacant vacant]
  exact List.mem_append_right _ List.mem_cons_self

theorem makeFolder_eq_ok {path : Path.Parsed} (ran : tree.makeFolder path = .ok made) :
    ∃ location, tree.locate path = .ok location ∧ tree.entry? location = none ∧
      made = tree.put location .folder := by
  simp only [makeFolder, bind, Outcome.bind_eq_ok] at ran
  obtain ⟨location, located, ran⟩ := ran
  split at ran
  case isTrue => cases ran
  case isFalse vacant =>
    cases ran
    exact ⟨location, located, by simpa using vacant, rfl⟩

/-- Making a folder keeps a tree well-formed and its contents. -/
theorem WellFormed.makeFolder (wellFormed : tree.WellFormed) {path : Path.Parsed}
    (ran : tree.makeFolder path = .ok made) :
    made.WellFormed ∧ made.contents = tree.contents := by
  obtain ⟨location, located, vacant, rfl⟩ := makeFolder_eq_ok ran
  refine ⟨wellFormed.put vacant (wellFormed.housed_of_locate located vacant) .folder, ?_⟩
  simp [contents, put_of_vacant vacant, contentOf]

theorem WellFormed.makeFolders (wellFormed : tree.WellFormed) (bound : Nat) (path : Path.Parsed) :
    (tree.makeFolders bound path).1.WellFormed ∧
      (tree.makeFolders bound path).1.contents = tree.contents := by
  induction bound generalizing path with
  | zero => exact ⟨wellFormed, rfl⟩
  | succ bound ih =>
    simp only [FileTree.makeFolders]
    split
    case h_1 made outcome => exact wellFormed.makeFolder outcome
    case h_3 => exact ⟨wellFormed, rfl⟩
    case h_2 =>
      split
      · exact ⟨wellFormed, rfl⟩
      · -- The folders above come first, and what was made of them stays.
        have above := ih path.parent
        split
        case h_1 rest refusal climbed =>
          rw [climbed] at above
          exact above
        case h_2 rest climbed =>
          rw [climbed] at above
          split
          case h_1 made outcome =>
            obtain ⟨kept, same⟩ := above.1.makeFolder outcome
            exact ⟨kept, same.trans above.2⟩
          case h_2 => exact above

end Deadwood.FileTree
