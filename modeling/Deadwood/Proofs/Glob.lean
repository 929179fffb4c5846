import Deadwood.FileTree.Glob
import Deadwood.Proofs.FileTree
import Deadwood.Proofs.Path

/-!
# Names that file patterns select

The names that lead to a selected file come from the pattern, where it spells
them out, and from the tree.  So they are names that a folder can hold, a name
that the pattern spells out is among them, and the path made of them has no
empty segment.
-/

namespace Deadwood

/-- A name that a folder can hold: not empty, and without a slash. -/
def Path.IsSegment (name : Text) : Prop := name ≠ [] ∧ Path.slash ∉ name

instance (name : Text) : Decidable (Path.IsSegment name) := inferInstanceAs (Decidable (_ ∧ _))

namespace GlobSegment

theorem ofName_eq_exact {text name : Text} (read : ofName text = .ok (.exact name)) : name = text := by
  simp only [ofName] at read
  split at read
  case isTrue => cases read
  case isFalse =>
    split at read
    case isTrue => cases read
    case isFalse =>
      split at read
      case isTrue => cases read
      case isFalse =>
        cases read
        rfl

theorem ofText_eq_ok {pattern : Text} {segments : List GlobSegment}
    (read : ofText pattern = .ok segments) :
    (Path.properSegments pattern).length ≤ segmentLimit ∧
      ∃ spelled, (Path.properSegments pattern).mapM ofName = .ok spelled ∧
        segments = if Text.endsWith pattern "/" then spelled ++ [.done] else spelled := by
  simp only [ofText] at read
  split at read
  case isTrue => cases read
  case isFalse =>
    split at read
    case isTrue => cases read
    case isFalse =>
      split at read
      case isTrue => split at read <;> cases read
      case isFalse =>
        simp only [bind, Outcome.bind_eq_ok] at read
        obtain ⟨spelled, mapped, read⟩ := read
        split at read
        case isTrue => cases read
        case isFalse few =>
          have whole := List.take_of_length_le (Nat.not_lt.mp few)
          rw [whole] at mapped
          cases read
          exact ⟨Nat.not_lt.mp few, spelled, mapped, rfl⟩

theorem exact_mem_properSegments {pattern name : Text} {segments : List GlobSegment}
    (read : ofText pattern = .ok segments) (listed : .exact name ∈ segments) :
    name ∈ Path.properSegments pattern := by
  obtain ⟨-, spelled, mapped, rfl⟩ := ofText_eq_ok read
  have inside : .exact name ∈ spelled := by
    split at listed
    case isTrue => simpa using listed
    case isFalse => exact listed
  obtain ⟨text, among, exact⟩ := (Outcome.mem_of_mapM mapped _).mp inside
  rw [ofName_eq_exact exact]
  exact among

end GlobSegment

namespace FileTree

variable {tree : FileTree} {segments : List GlobSegment} {here location : Location} {shown names : List Text}
  {P : Text → Prop}

/-! ## Walks -/

theorem descend_append (here : Location) (names others : List Text) :
    descend here (names ++ others) = descend (descend here names) others :=
  List.foldl_append

theorem descend_of_level (level : ∀ name ∈ names, name ≠ Path.up) :
    descend here names = here ++ names := by
  induction names generalizing here with
  | nil => simp [descend]
  | cons name rest ih =>
    have step : descend here (name :: rest) = descend (here ++ [name]) rest := by
      simp [descend, level name List.mem_cons_self]
    rw [step, ih fun other member => level other (List.mem_cons_of_mem name member)]
    simp

theorem walk_eq_descend (walked : tree.walk here names = .ok location) :
    location = descend here names := by
  induction names generalizing here with
  | nil =>
    cases walked
    rfl
  | cons name rest ih =>
    simp only [walk] at walked
    split at walked
    case h_1 =>
      split at walked
      case isTrue => cases walked
      case isFalse => exact ih walked
    case h_2 => cases walked
    case h_3 => cases walked

theorem walk_append (tree : FileTree) (here : Location) (names others : List Text) :
    tree.walk here (names ++ others) =
      (tree.walk here names).bind fun middle => tree.walk middle others := by
  induction names generalizing here with
  | nil => rfl
  | cons name rest ih =>
    simp only [List.cons_append, walk, ih]
    split
    · split <;> rfl
    · rfl
    · rfl

/-! ## Names -/

/-- Every name on the way to an entry is one that a folder can hold. -/
def HasNames (tree : FileTree) : Prop := ∀ item ∈ tree.entries, ∀ name ∈ item.1, Path.IsSegment name

instance (tree : FileTree) : Decidable tree.HasNames :=
  inferInstanceAs (Decidable (∀ item ∈ tree.entries, _))

/-- Every name on the way to an entry has a property. -/
def AllNames (tree : FileTree) (P : Text → Prop) : Prop := ∀ item ∈ tree.entries, ∀ name ∈ item.1, P name

instance (tree : FileTree) [DecidablePred P] : Decidable (tree.AllNames P) :=
  inferInstanceAs (Decidable (∀ item ∈ tree.entries, _))

theorem AllNames.child (named : tree.AllNames P) {name : Text} {entry : Entry}
    (member : (name, entry) ∈ tree.children here) : P name :=
  named _ (mem_children.mp member) name (by simp)

theorem AllNames.below (named : tree.AllNames P) (member : names ∈ tree.foldersBelow here) :
    ∀ name ∈ names, P name := by
  intro name among
  exact named _ (mem_foldersBelow.mp member).2 name (List.mem_append_right here among)

/-- A name that leads to an entry is one of the tree, or it is the step upwards. -/
theorem AllNames.step (named : tree.AllNames P) {name : Text} {entry : Entry}
    (walked : tree.walk here [name] = .ok location) (found : tree.entry? location = some entry) :
    name = Path.up ∨ P name := by
  refine or_iff_not_imp_left.mpr fun level => ?_
  have leads : location = here ++ [name] := by simpa [descend, level] using walk_eq_descend walked
  rw [leads] at found
  exact named _ (mem_of_found (by simp) found) name (by simp)

/-! ## Steps of a search -/

/-- How a segment leads on from a folder: by which names, and where.  Only the last segment leads to files. -/
inductive SearchStep (tree : FileTree) (here : Location) (isLast : Prop) :
    GlobSegment → List Text → Location → Prop where
  | deep {names : List Text} (below : names ∈ [] :: tree.foldersBelow here) :
    SearchStep tree here isLast .deep names (here ++ names)
  | wild {pattern name : Text} {entry : Entry} (child : (name, entry) ∈ tree.children here)
    (inner : isLast ∨ entry = .folder) (accepted : Wildcard.accepts pattern name = true) :
    SearchStep tree here isLast (.wild pattern) [name] (here ++ [name])
  | exact {name : Text} {place : Location} {entry : Entry} (walked : tree.walk here [name] = .ok place)
    (found : tree.entry? place = some entry) (inner : isLast ∨ entry = .folder) :
    SearchStep tree here isLast (.exact name) [name] place

/-- A closing slash ends a search; every other segment takes it one step on. -/
theorem mem_select_cons {segment : GlobSegment} {rest : List GlobSegment} :
    names ∈ tree.select (segment :: rest) here shown ↔ (segment = .done ∧ names = shown) ∨
      ∃ next place, SearchStep tree here (rest = []) segment next place ∧
        names ∈ tree.select rest place (shown ++ next) := by
  constructor
  · intro selected
    cases segment with
    | done => exact .inl ⟨rfl, List.mem_singleton.mp selected⟩
    | deep =>
      obtain ⟨next, below, onward⟩ := List.mem_flatMap.mp selected
      exact .inr ⟨next, _, .deep below, onward⟩
    | wild pattern =>
      obtain ⟨⟨name, entry⟩, child, onward⟩ := List.mem_flatMap.mp selected
      dsimp only at onward
      split at onward
      case isTrue fits =>
        simp only [Bool.and_eq_true, Bool.or_eq_true, decide_eq_true_eq] at fits
        exact .inr ⟨[name], _, .wild child fits.1 fits.2, onward⟩
      case isFalse => cases onward
    | exact name =>
      rw [select] at selected
      split at selected
      case h_2 => cases selected
      case h_1 place walked =>
        split at selected
        case h_2 => cases selected
        case h_1 entry found =>
          split at selected
          case isTrue inner => exact .inr ⟨[name], place, .exact walked found (by simpa using inner), selected⟩
          case isFalse => cases selected
  · rintro (⟨rfl, rfl⟩ | ⟨next, place, step, onward⟩)
    · exact List.mem_singleton_self names
    · cases step with
      | deep below => exact List.mem_flatMap.mpr ⟨next, below, onward⟩
      | wild child inner accepted =>
        refine List.mem_flatMap.mpr ⟨_, child, ?_⟩
        simpa [inner, accepted] using onward
      | exact walked found inner => simpa [select, walked, found, inner] using onward

namespace SearchStep

variable {isLast : Prop} {segment : GlobSegment} {next : List Text} {place : Location}

/-- A step is over names of the tree, or the step upwards that the pattern spells out. -/
theorem allNames (step : SearchStep tree here isLast segment next place) (named : tree.AllNames P)
    (upwards : segment = .exact Path.up → P Path.up) : ∀ name ∈ next, P name := by
  cases step with
  | deep below =>
    rcases List.mem_cons.mp below with rfl | inside
    · exact List.forall_mem_nil P
    · exact named.below inside
  | wild child inner accepted => exact List.forall_mem_singleton.mpr (named.child child)
  | exact walked found inner =>
    rw [List.forall_mem_singleton]
    rcases named.step walked found with rfl | held
    · exact upwards rfl
    · exact held

theorem spelled {name : Text} (step : SearchStep tree here isLast (.exact name) next place) : name ∈ next := by
  cases step with
  | exact walked found inner => exact List.mem_singleton_self name

end SearchStep

/-- What a pattern adds to the names that led to a folder: names of the tree, steps upwards if the pattern spells them
out, and among them all that the pattern spells out. -/
theorem AllNames.select (named : tree.AllNames P) (upwards : .exact Path.up ∈ segments → P Path.up)
    (selected : names ∈ tree.select segments here shown) :
    ∃ more, names = shown ++ more ∧ (∀ name ∈ more, P name) ∧
      (.done ∉ segments → ∀ name, .exact name ∈ segments → name ∈ more) := by
  induction segments generalizing here shown with
  | nil =>
    rw [FileTree.select, List.mem_singleton] at selected
    exact ⟨[], by simp [selected], by simp, by simp⟩
  | cons segment rest ih =>
    rcases mem_select_cons.mp selected with ⟨rfl, rfl⟩ | ⟨next, place, step, onward⟩
    · exact ⟨[], by simp, by simp, by simp⟩
    · obtain ⟨more, rfl, held, complete⟩ := ih (fun member => upwards (List.mem_cons_of_mem segment member)) onward
      have first := step.allNames named fun same => upwards (same ▸ List.mem_cons_self)
      refine ⟨next ++ more, by simp, List.forall_mem_append.mpr ⟨first, held⟩, ?_⟩
      intro unclosed name member
      rcases List.mem_cons.mp member with rfl | among
      · exact List.mem_append_left more step.spelled
      · exact List.mem_append_right next (complete (fun closed => unclosed (List.mem_cons_of_mem _ closed)) name among)

/-- The names of a selected file are names of the tree and steps upwards that the pattern spells out, and all that the
pattern spells out are among them. -/
theorem AllNames.glob (named : tree.AllNames P) (upwards : .exact Path.up ∈ segments → P Path.up)
    (selected : names ∈ tree.glob here segments) :
    (∀ name ∈ names, P name) ∧
      (.done ∉ segments → ∀ name, .exact name ∈ segments → name ∈ names) := by
  obtain ⟨more, rfl, held, complete⟩ := named.select upwards (List.mem_of_mem_filter selected)
  exact ⟨held, complete⟩

end FileTree

end Deadwood
