import Deadwood.Proofs.SearchLimits
import Deadwood.Proofs.Ways

/-!
# Searches below a folder

The pattern of a folder, `**` and a wildcard selects what lies below the folder,
at any depth, with a name that the wildcard accepts.  The search for it asks
about the folder and all folders below it, so it ends unless one of them is too
deep or has too long a path.
-/

namespace Deadwood

/-! ## Wildcards for an ending -/

namespace Wildcard

variable {ending name text : Text}

theorem parts_of_plain (plain : GlobSegment.hasWildcard text = false) : parts 0 text = text.map .one := by
  induction text with
  | nil => rfl
  | cons c rest ih =>
    simp only [GlobSegment.hasWildcard, List.any_cons, Bool.or_eq_false_iff, decide_eq_false_iff_not] at plain
    obtain ⟨⟨⟨notRun, notAny⟩, notBracket⟩, others⟩ := plain
    rw [parts, if_neg notRun, if_neg notAny, if_neg notBracket, ih others, List.map_cons]

theorem matchParts_one : matchParts (text.map .one) name = true ↔ name = text := by
  induction text generalizing name with
  | nil => cases name <;> simp [matchParts]
  | cons c rest ih =>
    cases name with
    | nil => simp [matchParts]
    | cons d more => simp [matchParts, ih]

theorem anyEnd_iff {test : Text → Bool} : anyEnd test text = true ↔ ∃ stop, stop <:+ text ∧ test stop = true := by
  induction text with
  | nil => simp [anyEnd]
  | cons c rest ih => simp [anyEnd, ih, List.suffix_cons_iff, or_and_right, exists_or]

/-- A run before an ending accepts exactly the names with this ending. -/
theorem accepts_ending (plain : GlobSegment.hasWildcard ending = false) :
    accepts (Codepoint.char '*' :: ending) name = true ↔ ending <:+ name := by
  rw [accepts, parts, if_pos rfl, parts_of_plain plain, matchParts, anyEnd_iff]
  simp [matchParts_one]

end Wildcard

/-! ## What is below a folder -/

namespace FileTree

variable {tree : FileTree} {here : Location} {names shown : List Text} {entry : Entry} {name : Text}
  {rest : List GlobSegment}

/-- A tree that a file system can hold: no name is too long for it. -/
structure Storable (tree : FileTree) : Prop extends tree.Proper where
  short : tree.AllNames fun name => isTooLong name = false

namespace Storable

variable (storable : tree.Storable)

include storable

/-- A new entry with names that a file system can hold. -/
theorem put {location : Location} (vacant : tree.entry? location = none)
    (housed : tree.entry? location.dropLast = some .folder)
    (held : ∀ name ∈ location, Path.IsName name ∧ IsNameable name ∧ isTooLong name = false) (entry : Entry) :
    (tree.put location entry).Storable := by
  have names : ∀ P : Text → Prop, tree.AllNames P → (∀ name ∈ location, P name) →
      (tree.put location entry).AllNames P := by
    intro P named added item member name among
    rcases List.mem_append.mp (put_of_vacant vacant entry ▸ member) with before | last
    · exact named item before name among
    · cases List.mem_singleton.mp last
      exact added name among
  exact ⟨⟨⟨storable.toWellFormed.put vacant housed entry,
    names _ storable.named fun name among => (held name among).1⟩,
    names _ storable.nameable fun name among => (held name among).2.1⟩,
    names _ storable.short fun name among => (held name among).2.2⟩

/-- Names lead to what stands there. -/
theorem walk_of_entry (found : tree.entry? (here ++ names) = some entry) :
    tree.walk here names = .ok (here ++ names) := by
  by_cases nameless : names = []
  · rw [nameless, List.append_nil]
    rfl
  · have member := mem_of_found (by simp [nameless]) found
    have housed := storable.housed _ member
    rw [List.dropLast_append_of_ne_nil nameless] at housed
    exact walk_of_parent storable.toWellFormed
      (fun name among => storable.named _ member name (List.mem_append_right here among))
      (fun name among => storable.short _ member name (List.mem_append_right here among)) housed

/-- A name leads into a folder. -/
theorem mem_select_exact (level : name ≠ Path.up) (more : rest ≠ []) :
    names ∈ tree.select (.exact name :: rest) here shown ↔
      tree.entry? (here ++ [name]) = some .folder ∧ names ∈ tree.select rest (here ++ [name]) (shown ++ [name]) := by
  rw [mem_select_cons]
  constructor
  · rintro (⟨closed, -⟩ | ⟨next, place, step, onward⟩)
    · cases closed
    · obtain ⟨rfl, -⟩ := step.isHeld (by simpa using level)
      cases step with
      | exact walked found inner => exact ⟨inner.resolve_left more ▸ found, onward⟩
  · rintro ⟨folder, onward⟩
    exact .inr ⟨[name], _, .exact (storable.walk_of_entry folder) folder (.inr rfl), onward⟩

/-- The folders from a folder on downwards. -/
theorem mem_foldersFrom (folder : tree.entry? here = some .folder) :
    names ∈ [] :: tree.foldersBelow here ↔ tree.entry? (here ++ names) = some .folder := by
  by_cases nameless : names = []
  · simp [nameless, folder]
  · rw [List.mem_cons, or_iff_right nameless, mem_foldersBelow, and_iff_right nameless]
    exact ⟨storable.entry?_of_mem, mem_of_found (by simp [nameless])⟩

theorem mem_select_deep (folder : tree.entry? here = some .folder) :
    names ∈ tree.select (.deep :: rest) here shown ↔ ∃ below, tree.entry? (here ++ below) = some .folder ∧
      names ∈ tree.select rest (here ++ below) (shown ++ below) := by
  simp only [select, List.mem_flatMap, storable.mem_foldersFrom folder]

theorem mem_select_wild {pattern : Text} : names ∈ tree.select [.wild pattern] here shown ↔
    ∃ last entry, names = shown ++ [last] ∧ tree.entry? (here ++ [last]) = some entry ∧
      Wildcard.accepts pattern last = true := by
  simp only [select, List.mem_flatMap, Prod.exists, decide_true, Bool.true_or, Bool.true_and]
  refine exists_congr fun last => exists_congr fun entry => ?_
  have stands : (last, entry) ∈ tree.children here ↔ tree.entry? (here ++ [last]) = some entry :=
    mem_children.trans ⟨storable.entry?_of_mem, mem_of_found (by simp)⟩
  rw [stands]
  split
  case isTrue accepted => simp [accepted, and_comm]
  case isFalse refused => simp [refused]

end Storable

section

variable (storable : tree.Storable) {folder pattern : Text} (level : folder ≠ Path.up)

include storable level

theorem Storable.mem_select_folders : names ∈ tree.select [.exact folder, .deep, .done] here [] ↔
    ∃ below, names = folder :: below ∧ tree.entry? (here ++ folder :: below) = some .folder := by
  rw [storable.mem_select_exact level (by simp)]
  constructor
  · rintro ⟨top, selected⟩
    obtain ⟨below, stands, last⟩ := (storable.mem_select_deep top).mp selected
    exact ⟨below, by simpa [select] using last, by simpa using stands⟩
  · rintro ⟨below, rfl, stands⟩
    have split : here ++ folder :: below = here ++ [folder] ++ below := by simp
    rw [split] at stands
    have top := storable.folder_of_append stands
    exact ⟨top, (storable.mem_select_deep top).mpr ⟨below, stands, by simp [select]⟩⟩

/-- A folder, any folders below it and a wildcard select what is below the folder with a name that the wildcard
accepts. -/
theorem Storable.mem_select_below : names ∈ tree.select [.exact folder, .deep, .wild pattern] here [] ↔
    ∃ between last entry, names = folder :: (between ++ [last]) ∧
      tree.entry? (here ++ folder :: (between ++ [last])) = some entry ∧ Wildcard.accepts pattern last = true := by
  rw [storable.mem_select_exact level (by simp)]
  constructor
  · rintro ⟨top, selected⟩
    obtain ⟨between, -, inside⟩ := (storable.mem_select_deep top).mp selected
    obtain ⟨last, entry, rfl, stands, accepted⟩ := storable.mem_select_wild.mp inside
    exact ⟨between, last, entry, by simp, by simpa using stands, accepted⟩
  · rintro ⟨between, last, entry, rfl, stands, accepted⟩
    have split : here ++ folder :: (between ++ [last]) = here ++ [folder] ++ between ++ [last] := by simp
    rw [split] at stands
    have above : tree.entry? (here ++ [folder] ++ between) = some .folder :=
      storable.folder_above stands rfl (List.cons_ne_nil last [])
    have top := storable.folder_of_append above
    refine ⟨top, (storable.mem_select_deep top).mpr ⟨between, above, storable.mem_select_wild.mpr ?_⟩⟩
    exact ⟨last, entry, by simp, stands, accepted⟩

/-- The files below a folder, at any depth, with a name that a wildcard accepts. -/
theorem Storable.mem_glob_iff : names ∈ tree.glob here [.exact folder, .deep, .wild pattern] ↔
    (∃ between last, names = folder :: (between ++ [last]) ∧ Wildcard.accepts pattern last = true) ∧
      ∃ content, tree.entry? (here ++ names) = some (.file content) := by
  rw [glob_def, List.mem_filter, leadsToFile_eq_true, storable.mem_select_below level]
  constructor
  · rintro ⟨⟨between, last, entry, rfl, stands, accepted⟩, location, content, walked, file⟩
    rw [storable.walk_of_entry stands, Except.ok.injEq] at walked
    exact ⟨⟨between, last, rfl, accepted⟩, content, walked ▸ file⟩
  · rintro ⟨⟨between, last, rfl, accepted⟩, content, file⟩
    exact ⟨⟨between, last, _, rfl, file, accepted⟩, _, content, storable.walk_of_entry file, file⟩

end

/-! ## The limits of the search below a folder -/

/-- What is below a folder can be searched: the folders are not too deep, and neither their paths nor those of what is
selected in them are too long. -/
structure IsWithin (tree : FileTree) (root : Path.Parsed) (here : Location) (folder : Text) (selects : Text → Prop) :
    Prop where
  top : isLong (root.append ⟨0, [folder]⟩) = false
  folders : ∀ names, tree.entry? (here ++ folder :: names) = some .folder →
    names.length < depthLimit ∧ isLong (root.append ⟨0, folder :: names⟩) = false
  selected : ∀ between last entry, tree.entry? (here ++ folder :: (between ++ [last])) = some entry → selects last →
    isLong (root.append ⟨0, folder :: (between ++ [last])⟩) = false

/-- The names of what stands in a tree can be asked about, unless they are too many or their path is too long. -/
theorem Storable.fault?_eq_none (storable : tree.Storable) {root : Path.Parsed} {depth : Nat}
    (stands : tree.entry? (here ++ names) = some entry) : Visit.fault? root ⟨names, depth⟩ = none ↔
      depth ≤ depthLimit ∧ isLong (root.append ⟨0, names⟩) = false := by
  have held : ∀ name ∈ names, IsNameable name ∧ isTooLong name = false := by
    intro name among
    have member := mem_of_found (List.ne_nil_of_mem (List.mem_append_right here among)) stands
    exact ⟨storable.nameable _ member name (List.mem_append_right here among),
      storable.short _ member name (List.mem_append_right here among)⟩
  rw [Visit.fault?_eq_none]
  refine and_congr_right fun _ => ?_
  constructor
  · intro fits
    exact (fits fun name among => (held name among).1).2
  · intro brief _
    exact ⟨fun name among => (held name among).2, brief⟩

section

variable (storable : tree.Storable) {root : Path.Parsed} {folder pattern : Text} (level : folder ≠ Path.up)

include storable level

/-- The search below a folder asks about the folder, whether or not it is there, about all the folders from it on, for
each of the two segments that follow, and about what it selects in them. -/
theorem Storable.mem_visits_below {visit : Visit} :
    visit ∈ tree.visits here [.exact folder, .deep, .wild pattern] ↔ visit = ⟨[folder], 0⟩ ∨
      (∃ names, tree.entry? (here ++ folder :: names) = some .folder ∧
        (visit = ⟨folder :: names, 1 + names.length⟩ ∨ visit = ⟨folder :: names, 2⟩)) ∨
      ∃ between last entry, tree.entry? (here ++ folder :: (between ++ [last])) = some entry ∧
        Wildcard.accepts pattern last = true ∧ visit = ⟨folder :: (between ++ [last]), 3⟩ := by
  have leads : descend here [folder] = here ++ [folder] := descend_of_level (by simpa using level)
  have split : ∀ names, here ++ folder :: names = here ++ [folder] ++ names := by simp
  have first : ∀ shown, shown ∈ tree.select [.exact folder, .done] here [] ↔
      shown = [folder] ∧ tree.entry? (here ++ [folder]) = some .folder := by
    intro shown
    rw [storable.mem_select_exact level (by simp)]
    simp [select, and_comm]
  rw [mem_visits]
  constructor
  · rintro (⟨depth, segment, shown, listed, selected, asked⟩ | ⟨shown, selected, rfl⟩)
    · rcases depth with _ | _ | _ | depth
      · cases listed
        obtain rfl : shown = [] := by simpa [select] using selected
        exact .inl (List.mem_singleton.mp asked)
      · cases listed
        obtain ⟨rfl, top⟩ := (first shown).mp selected
        obtain ⟨names, below, rfl⟩ := List.mem_map.mp asked
        rw [leads, storable.mem_foldersFrom top, ← split] at below
        exact .inr (.inl ⟨names, below, .inl rfl⟩)
      · cases listed
        obtain ⟨names, rfl, stands⟩ := (storable.mem_select_folders level).mp selected
        exact .inr (.inl ⟨names, stands, .inr (List.mem_singleton.mp asked)⟩)
      · cases listed
    · obtain ⟨between, last, entry, rfl, stands, accepted⟩ := (storable.mem_select_below level).mp selected
      exact .inr (.inr ⟨between, last, entry, stands, accepted, rfl⟩)
  · rintro (rfl | ⟨names, stands, rfl | rfl⟩ | ⟨between, last, entry, stands, accepted, rfl⟩)
    · exact .inl ⟨0, _, [], rfl, by simp [select], List.mem_singleton_self _⟩
    · rw [split] at stands
      have top := storable.folder_of_append stands
      refine .inl ⟨1, .deep, [folder], rfl, (first _).mpr ⟨rfl, top⟩, List.mem_map.mpr ⟨names, ?_, rfl⟩⟩
      rw [leads, storable.mem_foldersFrom top]
      exact stands
    · exact .inl ⟨2, _, _, rfl, (storable.mem_select_folders level).mpr ⟨names, rfl, stands⟩,
        List.mem_singleton_self _⟩
    · exact .inr ⟨_, (storable.mem_select_below level).mpr ⟨between, last, entry, rfl, stands, accepted⟩, rfl⟩

/-- All that a search below a folder asks about can be asked exactly if what is below the folder is within the
limits. -/
theorem Storable.isWithin_iff (nameable : IsNameable folder) (short : isTooLong folder = false) :
    (∀ visit ∈ tree.visits here [.exact folder, .deep, .wild pattern], visit.fault? root = none) ↔
      tree.IsWithin root here folder (Wildcard.accepts pattern · = true) := by
  have top : Visit.fault? root ⟨[folder], 0⟩ = none ↔ isLong (root.append ⟨0, [folder]⟩) = false := by
    simp [Visit.fault?_eq_none, nameable, short]
  simp only [storable.mem_visits_below level]
  constructor
  · intro clear
    refine ⟨top.mp (clear _ (.inl rfl)), ?_, ?_⟩
    · intro names stands
      obtain ⟨deep, brief⟩ := (storable.fault?_eq_none stands).mp (clear _ (.inr (.inl ⟨names, stands, .inl rfl⟩)))
      exact ⟨by omega, brief⟩
    · intro between last entry stands accepted
      have asked := clear _ (.inr (.inr ⟨between, last, entry, stands, accepted, rfl⟩))
      exact ((storable.fault?_eq_none stands).mp asked).2
  · rintro within visit (rfl | ⟨names, stands, rfl | rfl⟩ | ⟨between, last, entry, stands, accepted, rfl⟩)
    · exact top.mpr within.top
    · obtain ⟨deep, brief⟩ := within.folders names stands
      exact (storable.fault?_eq_none stands).mpr ⟨by omega, brief⟩
    · exact (storable.fault?_eq_none stands).mpr ⟨(by decide : 2 ≤ depthLimit), (within.folders names stands).2⟩
    · exact (storable.fault?_eq_none stands).mpr
        ⟨(by decide : 3 ≤ depthLimit), within.selected between last entry stands accepted⟩

end

end FileTree

end Deadwood
