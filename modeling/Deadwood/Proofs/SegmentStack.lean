import Deadwood.Proofs.RelativeImport

/-!
# Walks through folders

A relative path can be read one segment at a time: a name goes down into a
folder, `..` goes back up, anything else stays.  There is no way up from the
root, so a walk either ends in a folder below it or leaves it.  Normalizing the
texts joined together comes to the same: a walk that gets through ends at the
normalized path, seen from the root or absolutely, and one that leaves the root
keeps a step upwards at the front.
-/

namespace Deadwood

namespace Path

variable {inside next result parts names folders : List Text} {path text segment : Text}

/-! ## Walks -/

/-- Reads one segment in a folder, which is given by the names above it, the innermost one first. -/
def enter? (inside : List Text) (segment : Text) : Option (List Text) :=
  if segment = [] then some inside
  else if segment = here then some inside
  else if segment = up then
    match inside with
    | [] => none
    | _ :: outside => some outside
  else some (segment :: inside)

/-- Reads segments one after the other. -/
def follow? (inside parts : List Text) : Option (List Text) := parts.foldlM enter? inside

/-- Where a text leads from a folder; both are given by the names on the way down from the root. -/
def reach? (folders : List Text) (text : Text) : Option (List Text) :=
  (follow? folders.reverse (segments text)).map List.reverse

theorem follow?_cons (inside parts : List Text) (segment : Text) :
    follow? inside (segment :: parts) = (enter? inside segment).bind (follow? · parts) :=
  rfl

theorem enter?_eq_none (stuck : enter? inside segment = none) : inside = [] ∧ segment = up := by
  simp only [enter?] at stuck
  split at stuck
  case isTrue => cases stuck
  case isFalse =>
    split at stuck
    case isTrue => cases stuck
    case isFalse =>
      split at stuck
      case isFalse => cases stuck
      case isTrue climbs =>
        cases inside with
        | nil => exact ⟨rfl, climbs⟩
        | cons last outside => cases stuck

/-- One segment of a walk: names stay names, and a stack with the folder on top takes the same step,
whatever lies beneath the folder. -/
theorem step_of_enter (rooted : Bool) (base : List Text) (named : ∀ name ∈ inside, IsName name)
    (free : slash ∉ segment) (entered : enter? inside segment = some next) :
    (∀ name ∈ next, IsName name) ∧
      ([segment].filter fun part => part != [] && part != here).foldl (step rooted) (inside ++ base) =
        next ++ base := by
  simp only [enter?] at entered
  split at entered
  case isTrue empty =>
    cases entered
    exact ⟨named, by simp [empty]⟩
  case isFalse nonempty =>
    split at entered
    case isTrue stays =>
      cases entered
      exact ⟨named, by simp [stays]⟩
    case isFalse moves =>
      have kept : [segment].filter (fun part => part != [] && part != here) = [segment] := by
        simp [nonempty, moves]
      rw [kept, List.foldl_cons, List.foldl_nil]
      split at entered
      case isTrue climbs =>
        cases inside with
        | nil => cases entered
        | cons last outside =>
          cases entered
          have name := named last List.mem_cons_self
          constructor
          · intro other member
            exact named other (List.mem_cons_of_mem last member)
          · simp [step, climbs, name.not_up]
      case isFalse level =>
        cases entered
        constructor
        · exact List.forall_mem_cons.mpr ⟨⟨nonempty, moves, level, free⟩, named⟩
        · simp [step, level]

/-- A walk that gets through: the stack of segments ends in the folder that the walk reaches. -/
theorem foldl_of_follow (rooted : Bool) (base : List Text) (named : ∀ name ∈ inside, IsName name)
    (free : ∀ part ∈ parts, slash ∉ part) (followed : follow? inside parts = some result) :
    (∀ name ∈ result, IsName name) ∧
      (parts.filter fun part => part != [] && part != here).foldl (step rooted) (inside ++ base) =
        result ++ base := by
  induction parts generalizing inside with
  | nil =>
    cases followed
    exact ⟨named, rfl⟩
  | cons segment rest ih =>
    rw [follow?_cons, Option.bind_eq_some_iff] at followed
    obtain ⟨next, entered, followed⟩ := followed
    obtain ⟨first, rest⟩ := List.forall_mem_cons.mp free
    obtain ⟨nextNamed, stepped⟩ := step_of_enter rooted base named first entered
    rw [← List.singleton_append, List.filter_append, List.foldl_append, stepped]
    exact ih nextNamed rest followed

/-- What lies at the bottom of a stack as a step upwards stays there. -/
theorem getLast?_step {rooted : Bool} (bottom : inside.getLast? = some up) :
    (step rooted inside segment).getLast? = some up := by
  cases inside with
  | nil => cases bottom
  | cons last outside =>
    simp only [step]
    split
    case isTrue =>
      split
      case isTrue => simpa [List.getLast?_cons_cons] using bottom
      case isFalse level =>
        cases outside with
        | nil => exact absurd (by simpa using bottom) level
        | cons other more => simpa [List.getLast?_cons_cons] using bottom
    case isFalse => simpa [List.getLast?_cons_cons] using bottom

theorem getLast?_foldl_step {rooted : Bool} (bottom : inside.getLast? = some up) :
    (parts.foldl (step rooted) inside).getLast? = some up := by
  induction parts generalizing inside with
  | nil => exact bottom
  | cons segment rest ih => exact ih (getLast?_step bottom)

/-- A walk that goes up from the root: the stack of segments keeps that step at its bottom. -/
theorem bottom_of_follow (named : ∀ name ∈ inside, IsName name) (free : ∀ part ∈ parts, slash ∉ part)
    (left : follow? inside parts = none) :
    ((parts.filter fun part => part != [] && part != here).foldl (step false) inside).getLast? =
      some up := by
  induction parts generalizing inside with
  | nil => cases left
  | cons segment rest ih =>
    obtain ⟨first, rest⟩ := List.forall_mem_cons.mp free
    rw [← List.singleton_append, List.filter_append, List.foldl_append]
    rw [follow?_cons] at left
    cases entered : enter? inside segment with
    | none =>
      obtain ⟨empty, climbs⟩ := enter?_eq_none entered
      subst empty climbs
      exact getLast?_foldl_step rfl
    | some next =>
      rw [entered] at left
      obtain ⟨nextNamed, stepped⟩ := step_of_enter false [] named first entered
      rw [List.append_nil, List.append_nil] at stepped
      rw [stepped]
      exact ih nextNamed rest left

/-! ## Normalized texts -/

/-- The names of the folder of a canonical path. -/
def folderNames (path : Text) : List Text := (segments path).dropLast

theorem IsCanonical.folder_eq (canonical : IsCanonical path) :
    folder path = join (folderNames path) ∧ ∀ name ∈ folderNames path, IsName name := by
  obtain ⟨above, last, split, whole, named⟩ := canonical.exists_names
  have names : folderNames path = above := by
    rw [folderNames, split, List.dropLast_concat]
  rw [names]
  constructor
  · rw [whole, folder_concat above last named]
  · intro name member
    exact named name (List.mem_append_left _ member)

theorem slash_not_mem_segments (text : Text) : ∀ part ∈ segments text, slash ∉ part :=
  fun _ member => Text.not_mem_of_mem_splitOn member

theorem normalize_of_unrooted (unrooted : rootSlashes path = 0) :
    normalize path = (Parsed.mk 0 (stack path).reverse).toText := by
  rw [normalize_eq_stack, unrooted]
  rfl

/-- The stack of a relative text seen from a folder: the folder's names are read first. -/
theorem stack_append_join (named : ∀ name ∈ folders, IsName name) (relative : text.head? ≠ some slash) :
    stack (append (join folders) text) =
      (properSegments text).foldl (step false) folders.reverse := by
  rw [stack, rootSlashes_append_join named relative, properSegments_append_join named relative,
    List.foldl_append, foldl_step_names named, List.append_nil]
  rfl

/-- A walk that gets through ends at the path that normalizing the texts gives. -/
theorem normalize_of_reach (named : ∀ name ∈ folders, IsName name) (relative : text.head? ≠ some slash)
    (reached : reach? folders text = some names) :
    (∀ name ∈ names, IsName name) ∧
      normalize (append (join folders) text) = (Parsed.mk 0 names).toText := by
  rw [reach?, Option.map_eq_some_iff] at reached
  obtain ⟨result, followed, turned⟩ := reached
  have reversed : ∀ name ∈ folders.reverse, IsName name := by
    intro name member
    exact named name (List.mem_reverse.mp member)
  obtain ⟨resultNamed, folded⟩ :=
    foldl_of_follow false [] reversed (slash_not_mem_segments text) followed
  rw [List.append_nil, List.append_nil] at folded
  subst turned
  constructor
  · intro name member
    exact resultNamed name (List.mem_reverse.mp member)
  · rw [normalize_of_unrooted (rootSlashes_append_join named relative),
      stack_append_join named relative, properSegments, folded]

/-- A walk that leaves the root ends, as a normalized path, outside of it. -/
theorem not_insideRoot_of_reach (named : ∀ name ∈ folders, IsName name)
    (relative : text.head? ≠ some slash) (left : reach? folders text = none) :
    Resolution.insideRoot (normalize (append (join folders) text)) = false := by
  rw [reach?, Option.map_eq_none_iff] at left
  have reversed : ∀ name ∈ folders.reverse, IsName name := by
    intro name member
    exact named name (List.mem_reverse.mp member)
  have bottom : (stack (append (join folders) text)).getLast? = some up := by
    rw [stack_append_join named relative]
    exact bottom_of_follow reversed (slash_not_mem_segments text) left
  obtain ⟨above, turned⟩ : ∃ above, (stack (append (join folders) text)).reverse = up :: above := by
    rw [← List.head?_eq_some_iff, List.head?_reverse]
    exact bottom
  rw [normalize_of_unrooted (rootSlashes_append_join named relative), turned]
  cases above with
  | nil => decide
  | cons next more =>
    rw [Bool.eq_false_iff]
    intro inside
    apply (Resolution.insideRoot_iff.mp inside).2.1
    exact ⟨join (next :: more), by simp [Parsed.toText, join_cons, up, Text.ofString]⟩

/-! ## Paths without a root -/

theorem toText_nil : (Parsed.mk 0 []).toText = here := rfl

theorem toText_of_ne_nil (nonempty : names ≠ []) (named : ∀ name ∈ names, IsName name) :
    (Parsed.mk 0 names).toText = join names := by
  cases joined : join names with
  | nil => exact absurd joined (join_ne_nil nonempty (isStep_of_names named))
  | cons c rest => simp [Parsed.toText, joined]

/-- The path of names is inside the root and has no closing slash. -/
theorem toText_inside (named : ∀ name ∈ names, IsName name) :
    Resolution.insideRoot (Parsed.mk 0 names).toText = true ∧
      (Parsed.mk 0 names).toText.getLast? ≠ some slash := by
  by_cases empty : names = []
  · subst empty
    decide
  · rw [toText_of_ne_nil empty named]
    have canonical := IsCanonical.of_names empty named
    exact ⟨canonical.insideRoot, canonical.getLast?_ne_slash⟩

/-! ## Absolute paths -/

/-- The path from a folder to what lies at or below it. -/
def below? (folder path : Text) : Option Text :=
  if (properSegments folder).isPrefixOf (properSegments path) then
    some (Parsed.mk 0 ((properSegments path).drop (properSegments folder).length)).toText
  else none

theorem append_eq (relative : text.head? ≠ some slash) : append path text =
    if path = [] ∨ path.getLast? = some slash then path ++ text else path ++ slash :: text := by
  have unrooted : Text.startsWith text [slash] = false := by
    rw [Bool.eq_false_iff, ne_eq, Text.startsWith_singleton]
    exact relative
  simp only [append, unrooted, Bool.or_eq_true, decide_eq_true_eq, Text.endsWith_singleton]
  rfl

theorem properSegments_append_text (path : Text) (relative : text.head? ≠ some slash) :
    properSegments (append path text) = properSegments path ++ properSegments text := by
  rw [append_eq relative]
  split
  case isTrue closed =>
    rcases closed with empty | closed
    · subst empty
      rfl
    · obtain ⟨front, whole⟩ := List.getLast?_eq_some_iff.mp closed
      subst whole
      rw [List.append_assoc, List.singleton_append, properSegments_append, properSegments_append]
      simp [properSegments, segments, Text.splitOn]
  case isFalse => exact properSegments_append path text

theorem rootSlashes_append_text (nonempty : path ≠ []) (relative : text.head? ≠ some slash) :
    rootSlashes (append path text) = rootSlashes path := by
  have stops : text.takeWhile (· = slash) = [] := by
    cases text with
    | nil => rfl
    | cons c rest => simpa using relative
  -- Where the slashes at the front end, the path itself goes on, unless it has nothing else.
  have same : (append path text).takeWhile (· = slash) = path.takeWhile (· = slash) := by
    rw [append_eq relative]
    split
    case isTrue => grind [List.takeWhile_append]
    case isFalse unclosed =>
      rw [List.takeWhile_append, if_neg]
      intro whole
      have slashes := (List.takeWhile_prefix (· = slash)).eq_of_length whole
      apply unclosed
      rw [List.takeWhile_eq_self_iff] at slashes
      right
      rw [List.getLast?_eq_some_getLast nonempty]
      exact congrArg some (of_decide_eq_true (slashes _ (List.getLast_mem nonempty)))
  rw [rootSlashes, rootSlashes, same]

/-- The names of a normalized absolute path are what the stack of its segments holds. -/
theorem properSegments_normalize (absolute : rootSlashes path ≠ 0) :
    properSegments (normalize path) = (stack path).reverse ∧ ∀ name ∈ stack path, IsName name := by
  obtain ⟨names, count, split, named, grounded⟩ := settled_stack path
  have level : count = 0 := grounded (by simpa using absolute)
  subst level
  rw [List.replicate_zero, List.append_nil] at split
  rw [split]
  have reversed : ∀ name ∈ names.reverse, IsName name := by
    intro name member
    exact named name (List.mem_reverse.mp member)
  have slashed : ∀ count, properSegments (List.replicate count slash ++ join names.reverse) =
      names.reverse := by
    intro count
    induction count with
    | zero => exact properSegments_names reversed
    | succ count ih => exact (properSegments_append [] _).trans ih
  constructor
  · obtain ⟨count, slashes⟩ := Nat.exists_eq_succ_of_ne_zero absolute
    have shape : normalize path = List.replicate (rootSlashes path) slash ++ join names.reverse := by
      simp [normalize_eq_stack, split, slashes, List.replicate_succ]
    rw [shape, slashed]
  · exact named

/-- What is read from an absolute folder: the walk takes place above the folder's own stack. -/
theorem stack_append_absolute (absolute : rootSlashes path ≠ 0) (named : ∀ name ∈ names, IsName name)
    (relative : text.head? ≠ some slash) :
    rootSlashes (append (append path (join names)) text) = rootSlashes path ∧
      stack (append (append path (join names)) text) =
        (properSegments text).foldl (step true) (names.reverse ++ stack path) := by
  have nonempty : path ≠ [] := by
    intro empty
    subst empty
    exact absolute rfl
  have inner : (join names).head? ≠ some slash := head?_join_ne_slash (isStep_of_names named)
  have inside : append path (join names) ≠ [] := by
    intro empty
    have slashes := rootSlashes_append_text nonempty inner
    rw [empty] at slashes
    exact absolute slashes.symm
  have slashes : rootSlashes (append (append path (join names)) text) = rootSlashes path := by
    rw [rootSlashes_append_text inside relative, rootSlashes_append_text nonempty inner]
  have absolutely : (rootSlashes path != 0) = true := by simpa using absolute
  constructor
  · exact slashes
  · rw [stack, slashes, absolutely, properSegments_append_text _ relative,
      properSegments_append_text _ inner, properSegments_names named, List.foldl_append,
      List.foldl_append, foldl_step_names named, stack, absolutely]

/-- A walk that stays below an absolute folder ends below it, at the path that the walk gives. -/
theorem below?_of_reach (absolute : rootSlashes path ≠ 0)
    (named : ∀ name ∈ folders, IsName name) (relative : text.head? ≠ some slash)
    (reached : reach? folders text = some names) :
    below? (normalize path) (normalize (append (append path (join folders)) text)) =
      some (Parsed.mk 0 names).toText := by
  rw [reach?, Option.map_eq_some_iff] at reached
  obtain ⟨result, followed, turned⟩ := reached
  have reversed : ∀ name ∈ folders.reverse, IsName name := by
    intro name member
    exact named name (List.mem_reverse.mp member)
  obtain ⟨-, folded⟩ :=
    foldl_of_follow true (stack path) reversed (slash_not_mem_segments text) followed
  obtain ⟨slashes, stacked⟩ := stack_append_absolute absolute named relative
  have whole : properSegments (normalize (append (append path (join folders)) text)) =
      (stack path).reverse ++ names := by
    rw [(properSegments_normalize (slashes.trans_ne absolute)).1, stacked, properSegments, folded,
      List.reverse_append, turned]
  rw [below?, whole, (properSegments_normalize absolute).1, if_pos (by simp), List.drop_left]

theorem insideRoot_of_below {root inner : Text} (absolute : rootSlashes path ≠ 0)
    (lies : below? root (normalize path) = some inner) : Resolution.insideRoot inner = true := by
  simp only [below?] at lies
  split at lies
  case isFalse => cases lies
  case isTrue =>
    cases lies
    obtain ⟨names, named⟩ := properSegments_normalize absolute
    rw [names]
    apply (toText_inside _).1
    intro name member
    exact named name (List.mem_reverse.mp (List.mem_of_mem_drop member))

end Path

end Deadwood
