import Deadwood.Proofs.Selection
import Deadwood.Proofs.UsableSettings

/-!
# The limits of a search

A search asks the file system about places, and gives up where one of them is
too deep or its path too long.  Without steps upwards, every place that is asked
about is in the tree or one name below such a place.  So a tree that stays
somewhat below the limits can be searched for every pattern.
-/

namespace Deadwood

theorem GlobSegment.length_le_of_ofText {pattern : Text} {segments : List GlobSegment}
    (read : ofText pattern = .ok segments) : segments.length ≤ segmentLimit + 1 := by
  obtain ⟨few, spelled, mapped, rfl⟩ := ofText_eq_ok read
  have same := Outcome.length_mapM mapped
  split
  · rw [List.length_append, List.length_singleton]
    omega
  · omega

theorem Encoding.length_encodeEscaped? {text : Text} {bytes : Bytes} (encoded : encodeEscaped? text = some bytes) :
    bytes.length = byteCount text := by
  rw [encodeEscaped?, Option.map_eq_some_iff] at encoded
  obtain ⟨pieces, mapped, rfl⟩ := encoded
  induction text generalizing pieces with
  | nil =>
    cases mapped
    rfl
  | cons c rest ih =>
    simp only [List.mapM_cons, bind, Option.bind_eq_some_iff, pure, Option.some.injEq] at mapped
    obtain ⟨piece, first, others, later, rfl⟩ := mapped
    have counted := ih others later
    simp only [byteCount] at counted
    simp [byteCount, first, counted]

namespace FileTree

variable {tree : FileTree} {here place : Location} {names shown more : List Text} {segments : List GlobSegment}
  {visit : Visit} {name : Text}

theorem byteCount_le_nameLimit (nameable : IsNameable name) (short : isTooLong name = false) :
    Encoding.byteCount name ≤ nameLimit := by
  obtain ⟨bytes, encoded⟩ := Option.isSome_iff_exists.mp nameable.encodable
  rw [isTooLong, encoded, Option.getD_some, Encoding.length_encodeEscaped? encoded, decide_eq_false_iff_not] at short
  exact Nat.not_lt.mp short

/-! ## Places that are asked about -/

/-- A search asks about places for each segment, where the segments before it have led, and about what it selects. -/
theorem mem_visits : visit ∈ tree.visits here segments ↔
    (∃ depth segment shown, segments[depth]? = some segment ∧
      shown ∈ tree.select (segments.take depth ++ [.done]) here [] ∧ visit ∈ tree.visitsAt here shown depth segment) ∨
    ∃ shown ∈ tree.select segments here [], visit = ⟨shown, segments.length⟩ := by
  simp only [visits, List.mem_append, List.mem_flatMap, List.mem_map, Prod.exists, List.mk_mem_zipIdx_iff_getElem?]
  refine or_congr ?_ (exists_congr fun shown => and_congr_right fun _ => eq_comm)
  constructor
  · rintro ⟨segment, depth, listed, shown, selected, asked⟩
    exact ⟨depth, segment, shown, listed, selected, asked⟩
  · rintro ⟨depth, segment, shown, listed, selected, asked⟩
    exact ⟨segment, depth, listed, shown, selected, asked⟩

/-- Names lead to an entry of the tree, or they are none. -/
def IsHeld (tree : FileTree) (here : Location) (names : List Text) : Prop :=
  names = [] ∨ ∃ entry, (here ++ names, entry) ∈ tree.entries

theorem isHeld_of_folder (below : names ∈ [] :: tree.foldersBelow here) : tree.IsHeld here names :=
  (List.mem_cons.mp below).imp id fun member => ⟨.folder, (mem_foldersBelow.mp member).2⟩

theorem IsHeld.append (first : tree.IsHeld here names) (second : tree.IsHeld (here ++ names) more) :
    tree.IsHeld here (names ++ more) := by
  rcases second with rfl | ⟨entry, member⟩
  · rwa [List.append_nil]
  · exact .inr ⟨entry, by rwa [← List.append_assoc]⟩

/-- A step that is not upwards leads to something in the tree. -/
theorem SearchStep.isHeld {isLast : Prop} {segment : GlobSegment} {next : List Text}
    (step : SearchStep tree here isLast segment next place) (straight : segment ≠ .exact Path.up) :
    place = here ++ next ∧ tree.IsHeld here next := by
  cases step with
  | deep below => exact ⟨rfl, isHeld_of_folder below⟩
  | wild child inner accepted => exact ⟨rfl, .inr ⟨_, mem_children.mp child⟩⟩
  | @exact name _ entry walked found inner =>
    have level : name ≠ Path.up := fun same => straight (by rw [same])
    have leads : place = here ++ [name] := by
      rw [walk_eq_descend walked]
      exact descend_of_level (by simpa using level)
    subst leads
    exact ⟨rfl, .inr ⟨entry, mem_of_found (by simp) found⟩⟩

/-- What segments without steps upwards select is in the tree. -/
theorem isHeld_of_select (straight : .exact Path.up ∉ segments) (selected : names ∈ tree.select segments here shown) :
    ∃ more, names = shown ++ more ∧ tree.IsHeld here more := by
  induction segments generalizing here shown with
  | nil =>
    rw [select, List.mem_singleton] at selected
    exact ⟨[], by simpa using selected, .inl rfl⟩
  | cons segment rest ih =>
    rcases mem_select_cons.mp selected with ⟨rfl, rfl⟩ | ⟨next, place, step, onward⟩
    · exact ⟨[], (List.append_nil names).symm, .inl rfl⟩
    · obtain ⟨rfl, held⟩ := step.isHeld fun same => straight (same ▸ List.mem_cons_self)
      obtain ⟨more, rfl, further⟩ := ih (fun member => straight (List.mem_cons_of_mem segment member)) onward
      exact ⟨next ++ more, List.append_assoc shown next more, held.append further⟩

/-- Every place that is asked about is in the tree, or one name of the pattern below such a place. -/
theorem visit_cases (level : tree.AllNames (· ≠ Path.up)) (straight : .exact Path.up ∉ segments)
    (visited : visit ∈ tree.visits here segments) :
    visit.depth ≤ segments.length + visit.names.length ∧ (tree.IsHeld here visit.names ∨
      ∃ shown name, visit.names = shown ++ [name] ∧ tree.IsHeld here shown ∧ .exact name ∈ segments) := by
  rcases mem_visits.mp visited with ⟨depth, segment, shown, listed, selected, asked⟩ | ⟨shown, selected, rfl⟩
  · have among : depth < segments.length := (List.getElem?_eq_some_iff.mp listed).1
    have front : GlobSegment.exact Path.up ∉ segments.take depth ++ [.done] := by
      simpa using fun member => straight (List.mem_of_mem_take member)
    have held : tree.IsHeld here shown := by
      obtain ⟨more, rfl, held⟩ := isHeld_of_select front selected
      exact held
    cases segment with
    | deep =>
      obtain ⟨below, member, rfl⟩ := List.mem_map.mp asked
      have leads : descend here shown = here ++ shown := by
        apply descend_of_level
        rcases held with rfl | ⟨entry, inside⟩
        · simp
        · exact fun name listed => level _ inside name (List.mem_append_right here listed)
      rw [leads] at member
      refine ⟨?_, .inl (held.append (isHeld_of_folder member))⟩
      simp only [List.length_append]
      omega
    | exact name =>
      obtain rfl := List.mem_singleton.mp asked
      refine ⟨by dsimp only; omega, .inr ⟨shown, name, rfl, held, List.mem_of_getElem? listed⟩⟩
    | wild pattern =>
      obtain rfl := List.mem_singleton.mp asked
      exact ⟨by dsimp only; omega, .inl held⟩
    | done =>
      obtain rfl := List.mem_singleton.mp asked
      exact ⟨by dsimp only; omega, .inl held⟩
  · obtain ⟨more, rfl, held⟩ := isHeld_of_select straight selected
    exact ⟨Nat.le_add_right _ _, .inl held⟩

/-! ## Trees with room -/

/-- A tree that stays below the limits: no name is too long, and below every place there is room for another name and
for a whole pattern. -/
structure HasRoom (tree : FileTree) : Prop where
  short : tree.AllNames fun name => isTooLong name = false
  shallow : ∀ item ∈ tree.entries, item.1.length + GlobSegment.segmentLimit + 2 ≤ depthLimit
  brief : ∀ item ∈ tree.entries, Encoding.byteCount (Path.join item.1) + nameLimit + 2 < pathLimit

instance (tree : FileTree) : Decidable tree.HasRoom :=
  decidable_of_iff ((tree.AllNames fun name => isTooLong name = false) ∧
      (∀ item ∈ tree.entries, item.1.length + GlobSegment.segmentLimit + 2 ≤ depthLimit) ∧
      ∀ item ∈ tree.entries, Encoding.byteCount (Path.join item.1) + nameLimit + 2 < pathLimit)
    ⟨fun ⟨short, shallow, brief⟩ => ⟨short, shallow, brief⟩, fun room => ⟨room.short, room.shallow, room.brief⟩⟩

/-- The room below what stands in the tree, or at its root. -/
theorem HasRoom.at (room : tree.HasRoom) {entry : Entry} (stands : tree.entry? place = some entry) :
    (∀ name ∈ place, isTooLong name = false) ∧ place.length + GlobSegment.segmentLimit + 2 ≤ depthLimit ∧
      Encoding.byteCount (Path.join place) + nameLimit + 2 < pathLimit := by
  by_cases inside : place = []
  · subst inside
    decide
  · have member := mem_of_found inside stands
    exact ⟨room.short _ member, room.shallow _ member, room.brief _ member⟩

theorem byteCount_join_append_le (names : List Text) (name : Text) :
    Encoding.byteCount (Path.join (names ++ [name])) ≤
      Encoding.byteCount (Path.join names) + Encoding.byteCount name + 1 := by
  simp only [byteCount_join, List.flatten_append, List.flatten_singleton, Encoding.byteCount_append,
    List.length_append, List.length_singleton]
  omega

/-- The path of a place is long enough ahead of the limit that a name can follow. -/
theorem HasRoom.not_isLong (room : tree.HasRoom) {entry : Entry} {root : Path.Parsed} (rooted : root.slashes = 1)
    (stands : tree.entry? (root.names ++ shown) = some entry) (nameable : IsNameable name)
    (short : isTooLong name = false) : isLong (root.append ⟨0, shown ++ [name]⟩) = false := by
  have brief := (room.at stands).2.2
  have longer := byteCount_join_append_le (root.names ++ shown) name
  have bytes := byteCount_le_nameLimit nameable short
  rw [byteCount_join, List.append_assoc] at longer
  simp only [isLong_eq_false, Path.Parsed.append, if_true, rooted]
  omega

end FileTree

namespace Discovery

variable {tree : FileTree} {root : Path.Parsed} {pattern : Text}

/-- A pattern without steps upwards can be searched for in a tree with room. -/
theorem isSearchable_of_room (wellNamed : tree.WellNamed) (room : tree.HasRoom) (rooted : root.slashes = 1)
    (located : tree.locate root = .ok root.names) (folder : tree.entry? root.names = some .folder)
    (relative : GlobSegment.IsRelative pattern) (level : Path.up ∉ Path.properSegments pattern)
    (short : ∀ name ∈ Path.properSegments pattern, FileTree.isTooLong name = false) :
    IsSearchable tree root pattern := by
  refine ⟨relative, ?_⟩
  intro segments read visit visited
  rw [locationOf_eq located] at visited
  have straight : GlobSegment.exact Path.up ∉ segments :=
    fun listed => level (GlobSegment.exact_mem_properSegments read listed)
  have few := GlobSegment.length_le_of_ofText read
  have stands : ∀ {names}, tree.IsHeld root.names names → ∃ entry, tree.entry? (root.names ++ names) = some entry := by
    rintro names (rfl | ⟨entry, member⟩)
    · exact ⟨.folder, by rwa [List.append_nil]⟩
    · exact ⟨entry, wellNamed.entry?_of_mem member⟩
  have notUp : tree.AllNames (· ≠ Path.up) := fun item member name among =>
    (wellNamed.named item member name among).not_up
  rw [FileTree.Visit.fault?_eq_none]
  obtain ⟨depth, held | ⟨shown, name, spelled, held, listed⟩⟩ := FileTree.visit_cases notUp straight visited
  · obtain ⟨entry, found⟩ := stands held
    obtain ⟨shortNames, shallow, -⟩ := room.at found
    rw [List.length_append] at shallow
    refine ⟨by omega, fun _ => ⟨fun name among => shortNames name (List.mem_append_right _ among), ?_⟩⟩
    exact FileTree.isLong_of_sublist (List.sublist_append_left _ [Path.here])
      (room.not_isLong rooted found (by decide) (by decide))
  · obtain ⟨entry, found⟩ := stands held
    obtain ⟨shortNames, shallow, -⟩ := room.at found
    rw [List.length_append] at shallow
    rw [spelled, List.length_append, List.length_singleton] at depth
    rw [spelled]
    refine ⟨by omega, fun nameable => ⟨?_, ?_⟩⟩
    · intro other among
      rcases List.mem_append.mp among with front | last
      · exact shortNames other (List.mem_append_right _ front)
      · rw [List.mem_singleton.mp last]
        exact short name (GlobSegment.exact_mem_properSegments read listed)
    · exact room.not_isLong rooted found (nameable name (by simp))
        (short name (GlobSegment.exact_mem_properSegments read listed))

end Discovery

end Deadwood
