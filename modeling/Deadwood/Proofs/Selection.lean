import Deadwood.Proofs.Discovery
import Deadwood.Proofs.Glob
import Deadwood.Proofs.Move
import Deadwood.Proofs.PathBytes

/-!
# Where selected names lead

Names lead from a location to another by themselves: a step upwards drops a
name, any other name is added.  A walk through folders ends there, and so does
a selection by a pattern.  So a pattern selects the same files when another
file is taken away.
-/

namespace Deadwood

/-! ## Steps -/

namespace Path

variable {names : List Text}

theorem isStep_of_proper {path segment : Text} (member : segment ∈ properSegments path) :
    IsStep segment := by
  obtain ⟨nonempty, notHere, free⟩ := mem_properSegments member
  exact ⟨nonempty, notHere, free⟩

instance (segment : Text) : Decidable (IsName segment) :=
  decidable_of_iff (segment ≠ [] ∧ segment ≠ here ∧ segment ≠ up ∧ slash ∉ segment)
    ⟨fun ⟨nonempty, notHere, notUp, free⟩ => ⟨nonempty, notHere, notUp, free⟩,
      fun named => ⟨named.nonempty, named.not_here, named.not_up, named.free⟩⟩

/-- Steps put together are read as they are. -/
theorem Parsed.ofText_join (steps : ∀ name ∈ names, IsStep name) :
    Parsed.ofText (join names) = ⟨0, names⟩ := by
  have relative : rootSlashes (join names) = 0 := by
    rw [rootSlashes_eq_zero_iff]
    exact head?_join_ne_slash steps
  have proper : properSegments (join names) = names := by
    rw [properSegments_join fun name member => (steps name member).free, List.filter_eq_self]
    intro name member
    simp [(steps name member).nonempty, (steps name member).not_here]
  rw [ofText, relative, proper]

/-- Different steps are put together differently. -/
theorem join_inj {others : List Text} (steps : ∀ name ∈ names, IsStep name) (also : ∀ name ∈ others, IsStep name)
    (same : join names = join others) : names = others := by
  have reread := congrArg Parsed.ofText same
  rw [Parsed.ofText_join steps, Parsed.ofText_join also] at reread
  exact congrArg Parsed.names reread

end Path

namespace FileTree

variable {tree : FileTree} {here place location : Location} {names : List Text} {content : FileContent}
  {segments : List GlobSegment}

/-! ## Paths below a path -/

theorem namesFromRoot_append (tree : FileTree) (path : Path.Parsed) {below : Path.Parsed}
    (relative : below.slashes = 0) :
    tree.namesFromRoot (path.append below) = tree.namesFromRoot path ++ below.names := by
  simp only [namesFromRoot, Path.Parsed.append, if_pos relative]
  split <;> simp

/-- A path that is not too long leads on from where the path above it leads. -/
theorem locate_append_of_short {path below : Path.Parsed} (relative : below.slashes = 0)
    (short : isLong (path.append below) = false) (located : tree.locate path = .ok here) :
    tree.locate (path.append below) = tree.walk here below.names := by
  rw [locate, short, namesFromRoot_append tree path relative, walk_append, (locate_eq_ok.mp located).2]
  rfl

theorem locate_append {path below : Path.Parsed} (relative : below.slashes = 0) :
    tree.locate (path.append below) = .ok place ↔ isLong (path.append below) = false ∧
      ∃ here, tree.locate path = .ok here ∧ tree.walk here below.names = .ok place := by
  constructor
  · intro leads
    obtain ⟨short, walked⟩ := locate_eq_ok.mp leads
    rw [namesFromRoot_append tree path relative, walk_append, Outcome.bind_eq_ok] at walked
    obtain ⟨here, above, walked⟩ := walked
    exact ⟨short, here, locate_eq_ok.mpr ⟨isLong_of_append relative short, above⟩, walked⟩
  · rintro ⟨short, here, located, walked⟩
    rw [locate_append_of_short relative short located, walked]

/-- Whether names lead to a file. -/
def leadsToFile (tree : FileTree) (here : Location) (names : List Text) : Bool :=
  match tree.walk here names with
  | .ok location => match tree.entry? location with
    | some (.file _) => true
    | _ => false
  | .error _ => false

theorem leadsToFile_eq_true : tree.leadsToFile here names = true ↔ ∃ location content,
    tree.walk here names = .ok location ∧ tree.entry? location = some (.file content) := by
  simp only [leadsToFile]
  split
  case h_1 location walked =>
    split
    case h_1 content found => simp [walked, found]
    case h_2 other => simpa [walked] using other
  case h_2 fault walked => simp [walked]

theorem glob_def (tree : FileTree) (here : Location) (segments : List GlobSegment) :
    tree.glob here segments = (tree.select segments here []).filter (tree.leadsToFile here) := rfl

/-- A place that a search asks about is faultless if it is not too deep and its path not too long. -/
theorem Visit.fault?_eq_none {root : Path.Parsed} {visit : Visit} : visit.fault? root = none ↔
    visit.depth ≤ depthLimit ∧ ((∀ name ∈ visit.names, IsNameable name) →
      (∀ name ∈ visit.names, isTooLong name = false) ∧ isLong (root.append ⟨0, visit.names⟩) = false) := by
  rw [fault?]
  split
  case isTrue deep => simp [Nat.not_le.mpr deep]
  case isFalse shallow =>
    have fits : visit.depth ≤ depthLimit := Nat.not_lt.mp shallow
    rw [← isNameable_join, ← nameFault?_eq_none]
    cases nameFault? (Path.join visit.names) with
    | some fault => simp [fits]
    | none =>
      simp only [Option.isNone_none, Bool.true_and, fits, true_and, true_implies]
      split
      case isTrue long =>
        refine iff_of_false (by simp) ?_
        rintro ⟨short, brief⟩
        simp [List.any_eq_false.mpr (by simpa using short), brief] at long
      case isFalse short => simpa using short

/-! ## A file taken away -/

/-- A well-formed tree with proper names. -/
structure WellNamed (tree : FileTree) : Prop extends tree.WellFormed where
  named : tree.AllNames Path.IsName

/-- A tree as file systems have it: well-formed, with proper names that a path can have in it. -/
structure Proper (tree : FileTree) : Prop extends tree.WellNamed where
  nameable : tree.AllNames IsNameable

instance (tree : FileTree) : Decidable tree.WellNamed :=
  decidable_of_iff (tree.WellFormed ∧ tree.AllNames Path.IsName)
    ⟨fun ⟨wellFormed, named⟩ => ⟨wellFormed, named⟩, fun proper => ⟨proper.toWellFormed, proper.named⟩⟩

instance (tree : FileTree) : Decidable tree.Proper :=
  decidable_of_iff (tree.WellNamed ∧ tree.AllNames IsNameable)
    ⟨fun ⟨wellNamed, nameable⟩ => ⟨wellNamed, nameable⟩, fun proper => ⟨proper.toWellNamed, proper.nameable⟩⟩

/-- What a pattern selects is made of steps. -/
theorem WellNamed.steps (wellNamed : tree.WellNamed) (hit : names ∈ tree.glob here segments) :
    ∀ name ∈ names, Path.IsStep name := by
  have steps : tree.AllNames Path.IsStep :=
    fun item member name among => (wellNamed.named item member name among).isStep
  exact (steps.glob (fun _ => ⟨by decide, by decide, by decide⟩) hit).1

theorem location_ne_nil (file : tree.entry? place = some (.file content)) : place ≠ [] := by
  rintro rfl
  simp at file

theorem walk_erase (file : tree.entry? place = some (.file content)) :
    (tree.erase place).walk here names = .ok location ↔ tree.walk here names = .ok location := by
  induction names generalizing here with
  | nil => rfl
  | cons name rest ih =>
    by_cases same : here = place
    · have vacant : FileTree.entry? (tree.erase place) place = none :=
        entry?_erase_self (location_ne_nil file)
      simp [walk, same, file, vacant, throw, throwThe, MonadExceptOf.throw]
    · simp only [walk, entry?_erase same]
      split
      · split
        · rfl
        · exact ih
      · rfl
      · rfl

theorem locate_erase {path : Path.Parsed} (file : tree.entry? place = some (.file content)) :
    (tree.erase place).locate path = .ok location ↔ tree.locate path = .ok location := by
  rw [locate_eq_ok, locate_eq_ok]
  exact and_congr_right fun _ => walk_erase file

theorem foldersBelow_erase (wellFormed : tree.WellFormed)
    (file : tree.entry? place = some (.file content)) (here : Location) :
    (tree.erase place).foldersBelow here = tree.foldersBelow here := by
  rw [foldersBelow, foldersBelow, erase, List.filterMap_filter]
  apply List.filterMap_congr
  intro item member
  by_cases same : item.1 = place
  · have found := wellFormed.entry?_of_mem member
    rw [same, file, Option.some.injEq] at found
    simp [same, ← found]
  · simp [same]

theorem children_erase (tree : FileTree) (place here : Location) : (tree.erase place).children here =
    (tree.children here).filter fun child => here ++ [child.1] ≠ place := by
  rw [children_eq, children_eq, erase, List.filterMap_filter, List.filter_filterMap]
  apply List.filterMap_congr
  intro item _
  by_cases inside : item.1.dropLast = here
  · cases last : item.1.getLast? with
    | none => simp
    | some name =>
      have whole : here ++ [name] = item.1 := by
        rw [← inside]
        exact List.dropLast_append_getLast? name last
      simp [inside, whole, Option.filter]
  · simp [inside]

theorem WellFormed.entry?_of_child (wellFormed : tree.WellFormed) {name : Text} {entry : Entry}
    (member : (name, entry) ∈ tree.children here) : tree.entry? (here ++ [name]) = some entry :=
  wellFormed.entry?_of_mem (mem_children.mp member)

theorem flatMap_filter {α β : Type} (items : List α) (test : α → Bool) (f : α → List β) :
    (items.filter test).flatMap f = items.flatMap fun item => if test item then f item else [] := by
  induction items with
  | nil => rfl
  | cons item rest ih => cases passed : test item <;> simp [passed, ih]

section

-- One segment after the other: names that lead on are followed as before, and a last name that leads to the file is
-- not kept.
variable {keeps : List Text → Bool} {shown : List Text} {rest : List GlobSegment}
  (file : tree.entry? place = some (.file content))
  (onward : ∀ names, descend here names ≠ place →
    (tree.erase place).select rest (descend here names) (shown ++ names) =
      (tree.select rest (descend here names) (shown ++ names)).filter keeps)

include file onward

theorem WellNamed.select_deep_erase (proper : tree.WellNamed) (outside : here ≠ place) :
    (tree.erase place).select (.deep :: rest) here shown =
      (tree.select (.deep :: rest) here shown).filter keeps := by
  simp only [select, foldersBelow_erase proper.toWellFormed file, List.filter_flatMap]
  apply List.flatMap_congr
  intro names member
  have leads : descend here names = here ++ names := by
    apply descend_of_level
    rcases List.mem_cons.mp member with rfl | below
    · simp
    · exact fun name among => (proper.named.below below name among).not_up
  rw [← leads]
  apply onward
  rw [leads]
  rcases List.mem_cons.mp member with rfl | below
  · simpa using outside
  · rintro rfl
    rw [proper.entry?_of_mem (mem_foldersBelow.mp below).2] at file
    cases file

variable (dropped : rest = [] → ∀ name, descend here [name] = place → keeps (shown ++ [name]) = false)

include dropped

theorem WellNamed.select_wild_erase (proper : tree.WellNamed) (pattern : Text) :
    (tree.erase place).select (.wild pattern :: rest) here shown =
      (tree.select (.wild pattern :: rest) here shown).filter keeps := by
  simp only [select, children_erase, flatMap_filter, List.filter_flatMap]
  apply List.flatMap_congr
  rintro ⟨name, entry⟩ member
  have leads : descend here [name] = here ++ [name] := by simp [descend, (proper.named.child member).not_up]
  by_cases taken : here ++ [name] = place
  · have found := proper.entry?_of_child member
    rw [taken, file, Option.some.injEq] at found
    subst found
    simp only [taken, ne_eq, not_true, decide_false, Bool.false_eq_true, if_false, reduceCtorEq, Bool.or_false]
    split
    case isFalse => rfl
    case isTrue last =>
      simp only [Bool.and_eq_true, decide_eq_true_eq] at last
      simp [last.1, select, dropped last.1 name (leads.trans taken)]
  · simp only [taken, ne_eq, not_false_eq_true, decide_true, if_true]
    split
    · rw [← leads]
      exact onward [name] (by rwa [leads])
    · rfl

theorem select_exact_erase (name : Text) :
    (tree.erase place).select (.exact name :: rest) here shown =
      (tree.select (.exact name :: rest) here shown).filter keeps := by
  simp only [select]
  cases walked : tree.walk here [name] with
  | error fault =>
    cases rewalked : (tree.erase place).walk here [name] with
    | error other => rfl
    | ok next =>
      rw [walk_erase file, walked] at rewalked
      cases rewalked
  | ok next =>
    have leads := walk_eq_descend walked
    rw [(walk_erase file).mpr walked]
    by_cases taken : next = place
    · simp only [taken, file, entry?_erase_self (location_ne_nil file), reduceCtorEq, decide_false, Bool.or_false]
      split
      case isFalse => rfl
      case isTrue last =>
        have none := of_decide_eq_true last
        simp [none, select, dropped none name (leads.symm.trans taken)]
    · simp only [entry?_erase taken]
      split
      · split
        · rw [leads]
          exact onward [name] (leads ▸ taken)
        · rfl
      · rfl

end

/-- A pattern selects the same names when a file is taken away, apart from names that lead there; a pattern with a
closing slash leads to no file. -/
theorem WellNamed.select_erase (proper : tree.WellNamed) (file : tree.entry? place = some (.file content))
    {keeps : List Text → Bool} {shown : List Text} (outside : here ≠ place)
    (reads : ∀ more, keeps (shown ++ more) = (decide (.done ∈ segments) || decide (descend here more ≠ place))) :
    (tree.erase place).select segments here shown = (tree.select segments here shown).filter keeps := by
  induction segments generalizing here shown with
  | nil =>
    have kept : keeps shown = true := by simpa [descend, outside] using reads []
    simp [select, kept]
  | cons segment rest ih =>
    by_cases closed : segment = .done
    · have kept : keeps shown = true := by simpa [closed] using reads []
      simp [closed, select, kept]
    · have onward : ∀ names, descend here names ≠ place →
          (tree.erase place).select rest (descend here names) (shown ++ names) =
            (tree.select rest (descend here names) (shown ++ names)).filter keeps := by
        intro names elsewhere
        apply ih elsewhere
        intro more
        rw [List.append_assoc, reads, descend_append]
        simp [Ne.symm closed]
      have dropped : rest = [] → ∀ name, descend here [name] = place → keeps (shown ++ [name]) = false := by
        rintro rfl name taken
        simp [reads, Ne.symm closed, taken]
      cases segment with
      | done => exact absurd rfl closed
      | deep => exact proper.select_deep_erase file onward outside
      | wild pattern => exact proper.select_wild_erase file onward dropped pattern
      | exact name => exact select_exact_erase file onward dropped name

theorem WellNamed.select_erase_root (proper : tree.WellNamed) (file : tree.entry? place = some (.file content))
    (outside : here ≠ place) : (tree.erase place).select segments here [] =
      (tree.select segments here []).filter fun names => .done ∈ segments || descend here names ≠ place :=
  proper.select_erase file outside (by simp)

theorem findSome?_filter {α β : Type} {items : List α} {test : α → Bool} {f : α → Option β}
    (nothing : ∀ item ∈ items, test item = false → f item = none) :
    (items.filter test).findSome? f = items.findSome? f := by
  induction items with
  | nil => rfl
  | cons item rest ih =>
    obtain ⟨first, others⟩ := List.forall_mem_cons.mp nothing
    cases passed : test item with
    | true => simp [passed, List.findSome?_cons, ih others]
    | false => simp [passed, ih others, first passed]

/-- The search for a pattern asks about the same places when a file is taken away, apart from the file itself. -/
theorem WellNamed.visits_erase (proper : tree.WellNamed) (file : tree.entry? place = some (.file content))
    (outside : here ≠ place) {root : Path.Parsed}
    (askable : ∀ names ∈ tree.select segments here [], descend here names = place →
      Visit.fault? root ⟨names, segments.length⟩ = none) :
    ((tree.erase place).visits here segments).findSome? (·.fault? root) =
      (tree.visits here segments).findSome? (·.fault? root) := by
  have folders : ∀ depth, (tree.erase place).select (segments.take depth ++ [.done]) here [] =
      tree.select (segments.take depth ++ [.done]) here [] := by
    intro depth
    have same : (tree.erase place).select (segments.take depth ++ [.done]) here [] =
        (tree.select (segments.take depth ++ [.done]) here []).filter fun _ => true :=
      proper.select_erase file outside (by simp)
    rw [same, List.filter_true]
  have front : ∀ shown depth segment, (tree.erase place).visitsAt here shown depth segment =
      tree.visitsAt here shown depth segment := by
    intro shown depth segment
    cases segment <;> simp [visitsAt, foldersBelow_erase proper.toWellFormed file]
  simp only [visits, folders, front, proper.select_erase_root file outside, List.findSome?_append, List.findSome?_map]
  congr 1
  apply findSome?_filter
  intro names selected dropped
  simp only [ne_eq, decide_not, Bool.or_eq_false_iff, Bool.not_eq_false', decide_eq_true_eq] at dropped
  exact askable names selected dropped.2

theorem leadsToFile_erase (file : tree.entry? place = some (.file content)) :
    (tree.erase place).leadsToFile here names =
      (tree.leadsToFile here names && decide (descend here names ≠ place)) := by
  rw [Bool.eq_iff_iff, Bool.and_eq_true, decide_eq_true_eq, leadsToFile_eq_true, leadsToFile_eq_true]
  constructor
  · rintro ⟨location, content, walked, found⟩
    have other : location ≠ place := by
      rintro rfl
      rw [entry?_erase_self (location_ne_nil file)] at found
      cases found
    rw [walk_erase file] at walked
    rw [entry?_erase other] at found
    exact ⟨⟨location, content, walked, found⟩, walk_eq_descend walked ▸ other⟩
  · rintro ⟨⟨location, content, walked, found⟩, other⟩
    rw [← walk_eq_descend walked] at other
    exact ⟨location, content, (walk_erase file).mpr walked, (entry?_erase other).trans found⟩

/-- A pattern selects the same files when another file is taken away. -/
theorem WellNamed.glob_erase (proper : tree.WellNamed) (file : tree.entry? place = some (.file content))
    (outside : here ≠ place) : (tree.erase place).glob here segments =
      (tree.glob here segments).filter fun names => descend here names ≠ place := by
  rw [glob_def, glob_def, proper.select_erase_root file outside, List.filter_filter, List.filter_filter]
  apply List.filter_congr
  intro names _
  rw [leadsToFile_erase file]
  cases tree.leadsToFile here names <;> by_cases leads : descend here names = place <;> simp [leads]

end FileTree

/-! ## Selected files -/

namespace Discovery

variable {tree : FileTree} {root : Path.Parsed} {here place location : Location} {folder path : Text}
  {names paths : List Text} {patterns : Value} {content : FileContent}

theorem locationOf_eq (located : tree.locate root = .ok here) : locationOf tree root = here := by
  simp [locationOf, located, Except.toOption]

/-- A path of a file from the root: the names that it is made of lead from the root's location to the file. -/
structure LeadsTo (tree : FileTree) (root : Path.Parsed) (here : Location) (path : Text) (names : List Text)
    (location : Location) (content : FileContent) : Prop where
  spelled : path = Path.join names
  steps : ∀ name ∈ names, Path.IsStep name
  nameable : FileTree.IsNameable path
  walks : tree.walk here names = .ok location
  leads : tree.locate (root.append (Path.Parsed.ofText path)) = .ok location
  stands : tree.entry? location = some (.file content)

/-- A path that leads to a file from a folder is not empty. -/
theorem LeadsTo.below (leadsTo : LeadsTo tree root here path names location content)
    (folder : tree.entry? here = some .folder) :
    (Path.Parsed.ofText path).slashes = 0 ∧ (Path.Parsed.ofText path).names ≠ [] := by
  rw [leadsTo.spelled, Path.Parsed.ofText_join leadsTo.steps]
  refine ⟨rfl, ?_⟩
  rintro rfl
  obtain rfl : here = location := Except.ok.inj leadsTo.walks
  rw [leadsTo.stands] at folder
  cases folder

/-- Names that a search has found lead to a file. -/
theorem leadsTo_of_search (proper : tree.Proper) (located : tree.locate root = .ok here) {value : Value}
    {pattern : List GlobSegment} (searched : search tree root value = .ok paths)
    (read : patternOf value = .ok pattern) (hit : names ∈ tree.glob here pattern) :
    ∃ location content, LeadsTo tree root here (Path.join names) names location content := by
  obtain ⟨again, reread, clear, -⟩ := search_eq_ok.mp searched
  cases read.symm.trans reread
  rw [locationOf_eq located] at clear
  have steps := proper.toWellNamed.steps hit
  have nameable := (proper.nameable.glob (fun _ => by decide) hit).1
  have visited : ⟨names, pattern.length⟩ ∈ tree.visits here pattern :=
    List.mem_append_right _ (List.mem_map_of_mem (List.mem_of_mem_filter hit))
  obtain ⟨-, fits⟩ := FileTree.Visit.fault?_eq_none.mp (clear _ visited)
  obtain ⟨location, content, walked, stands⟩ := FileTree.leadsToFile_eq_true.mp (List.mem_filter.mp hit).2
  refine ⟨location, content, rfl, steps, FileTree.isNameable_join.mpr nameable, walked, ?_, stands⟩
  rw [Path.Parsed.ofText_join steps, FileTree.locate_append_of_short rfl (fits nameable).2 located]
  exact walked

/-- The paths that patterns have selected lead to files. -/
theorem leadsTo_of_select (proper : tree.Proper) (located : tree.locate root = .ok here)
    (ran : select tree root folder patterns = .ok paths) (listed : path ∈ paths) :
    ∃ names location content, LeadsTo tree root here path names location content := by
  obtain ⟨values, items, value, among, pattern, read, ⟨names, hit, rfl⟩, -⟩ := (mem_select ran).mp listed
  rw [locationOf_eq located] at hit
  simp only [select, bind, Outcome.bind_eq_ok] at ran
  obtain ⟨others, same, found, mapped, -⟩ := ran
  cases items.symm.trans same
  obtain ⟨_, searched⟩ := Outcome.exists_of_mapM mapped among
  exact ⟨names, leadsTo_of_search proper located searched read hit⟩

/-- The files that a scan has found. -/
theorem leadsTo_of_scan {settings : Settings} {found : Discovery} (proper : tree.Proper)
    (located : tree.locate root = .ok here) (ran : (scan tree root settings).result = .ok found)
    (listed : path ∈ found.files) : ∃ names location content, LeadsTo tree root here path names location content := by
  obtain ⟨scriptPaths, _, stylePaths, _, selectedScripts, -, selectedStyles, -, files, -⟩ := scan_stages ran
  rcases (files path).mp listed with script | stylesheet
  · exact leadsTo_of_select proper located selectedScripts script
  · exact leadsTo_of_select proper located selectedStyles stylesheet

/-- Paths of found files can be named, if the names of the tree can. -/
theorem isNameable_of_found {settings : Settings} {sources : Discovery} (names : tree.AllNames FileTree.IsNameable)
    (ran : (scan tree root settings).result = .ok sources) (found : path ∈ sources.files) :
    FileTree.IsNameable path := by
  have selected : ∀ {patterns}, Selected tree (locationOf tree root) settings.backupFolder patterns path →
      FileTree.IsNameable path := by
    rintro patterns ⟨values, -, value, -, pattern, -, ⟨steps, hit, rfl⟩, -⟩
    exact FileTree.isNameable_join.mpr (names.glob (fun _ => by decide) hit).1
  exact (((scan_finds ran).files path).mp found).elim selected selected

/-- Whatever patterns select at a place is no candidate, and can be asked about. -/
def Misses (tree : FileTree) (root : Path.Parsed) (folder : Text) (patterns : Value) (place : Location) : Prop :=
  ∀ values, patterns.items = .ok values → ∀ value ∈ values, ∀ pattern, patternOf value = .ok pattern →
    ∀ names ∈ tree.select pattern (locationOf tree root) [],
      FileTree.descend (locationOf tree root) names = place →
        isCandidate folder (Path.join names) = false ∧ FileTree.Visit.fault? root ⟨names, pattern.length⟩ = none

/-- Patterns select the same files when a file is taken away that they miss. -/
theorem select_erase (proper : tree.Proper) (file : tree.entry? place = some (.file content))
    (located : tree.locate root = .ok here) (outside : here ≠ place) (misses : Misses tree root folder patterns place) :
    select (tree.erase place) root folder patterns = select tree root folder patterns := by
  have there := locationOf_eq located
  have stays : locationOf (tree.erase place) root = here := locationOf_eq ((FileTree.locate_erase file).mpr located)
  rw [select_eq, select_eq]
  cases items : patterns.items with
  | error fault => rfl
  | ok values =>
    -- Every search finds the same files, apart from those that are no candidates.
    have searches : ∀ value ∈ values,
        (search (tree.erase place) root value).map (List.filter (isCandidate folder)) =
          (search tree root value).map (List.filter (isCandidate folder)) := by
      intro value listed
      simp only [search, bind, stays, there]
      cases parse : patternOf value with
      | error fault => rfl
      | ok pattern =>
        have missed := misses values items value listed pattern parse
        rw [there] at missed
        simp only [Except.bind, proper.visits_erase file outside fun names selected leads =>
          (missed names selected leads).2]
        split
        case h_1 => rfl
        case h_2 =>
          simp only [pure, Except.pure, Except.map, Except.ok.injEq]
          rw [proper.glob_erase file outside, List.filter_map, List.filter_map, List.filter_filter]
          congr 1
          apply List.filter_congr
          intro names hit
          simp only [Function.comp_apply, Bool.and_eq_left_iff_imp, decide_eq_true_eq]
          intro candidate leads
          rw [(missed names (List.mem_of_mem_filter hit) leads).1] at candidate
          cases candidate
    simp only [Except.bind, Outcome.mapM_congr searches]

end Discovery

end Deadwood
