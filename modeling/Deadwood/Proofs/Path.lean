import Deadwood.Path
import Deadwood.Proofs.Text

/-!
# Canonical paths

A canonical path is a nonempty list of plain names with single slashes between
them.  The module reads paths as lists of names: normalizing a relative path
runs a stack over its segments, and the stack always consists of names above
steps upwards.  So a normalized path that does not climb is canonical or `.`,
and a relative spelling leads exactly where its steps say.
-/

namespace Deadwood.Path

variable {path text : Text} {names : List Text}

/-! ## Names -/

/-- A segment that names something inside a folder. -/
structure IsName (segment : Text) : Prop where
  nonempty : segment ≠ []
  not_here : segment ≠ here
  not_up : segment ≠ up
  free : slash ∉ segment

/-- A segment that a path keeps: neither empty nor `.`. -/
structure IsStep (segment : Text) : Prop where
  nonempty : segment ≠ []
  not_here : segment ≠ here
  free : slash ∉ segment

theorem IsName.isStep {segment : Text} (named : IsName segment) : IsStep segment :=
  ⟨named.nonempty, named.not_here, named.free⟩

theorem IsStep.isName {segment : Text} (step : IsStep segment) (level : segment ≠ up) : IsName segment :=
  ⟨step.nonempty, step.not_here, level, step.free⟩

theorem isStep_of_names {names : List Text} (named : ∀ name ∈ names, IsName name) :
    ∀ name ∈ names, IsStep name :=
  fun name member => (named name member).isStep

/-- No segment is empty, `.` or `..`. -/
def IsCanonical (path : Text) : Prop :=
  ∀ segment ∈ segments path, segment ≠ [] ∧ segment ≠ here ∧ segment ≠ up

instance (path : Text) : Decidable (IsCanonical path) :=
  inferInstanceAs (Decidable (∀ segment ∈ segments path, _))

theorem join_cons (name : Text) (nonempty : names ≠ []) :
    join (name :: names) = name ++ slash :: join names := by
  rw [join, Text.joinWith, List.intercalate_cons_of_ne_nil nonempty]
  simp [join, Text.joinWith]

theorem join_concat (name : Text) (nonempty : names ≠ []) :
    join (names ++ [name]) = join names ++ slash :: name := by
  induction names with
  | nil => exact absurd rfl nonempty
  | cons first rest ih =>
    cases rest with
    | nil => simp [join, Text.joinWith]
    | cons second more =>
      have tail := ih (by simp)
      rw [List.cons_append, join_cons first (by simp), tail, join_cons first (by simp)]
      simp

theorem join_append {others : List Text} (nonempty : names ≠ []) (more : others ≠ []) :
    join (names ++ others) = join names ++ slash :: join others := by
  induction names with
  | nil => exact absurd rfl nonempty
  | cons first rest ih =>
    cases rest with
    | nil =>
      rw [List.singleton_append, join_cons first more]
      simp [join, Text.joinWith]
    | cons second rest =>
      rw [List.cons_append, join_cons first (by simp), ih (by simp), join_cons first (by simp)]
      simp

theorem segments_join (nonempty : names ≠ []) (named : ∀ name ∈ names, IsName name) :
    segments (join names) = names :=
  Text.splitOn_joinWith nonempty fun name member => (named name member).free

theorem join_segments (path : Text) : join (segments path) = path :=
  Text.joinWith_splitOn slash path

namespace IsCanonical

theorem named (canonical : IsCanonical path) : ∀ name ∈ segments path, IsName name := by
  intro name member
  obtain ⟨nonempty, notHere, notUp⟩ := canonical name member
  exact ⟨nonempty, notHere, notUp, Text.not_mem_of_mem_splitOn member⟩

theorem of_names (nonempty : names ≠ []) (named : ∀ name ∈ names, IsName name) :
    IsCanonical (join names) := by
  intro name member
  rw [segments_join nonempty named] at member
  exact ⟨(named name member).nonempty, (named name member).not_here, (named name member).not_up⟩

end IsCanonical

/-! ## Segments that say something -/

theorem mem_properSegments {segment : Text} (member : segment ∈ properSegments path) :
    segment ≠ [] ∧ segment ≠ here ∧ slash ∉ segment := by
  simp only [properSegments, List.mem_filter, Bool.and_eq_true, bne_iff_ne] at member
  exact ⟨member.2.1, member.2.2, Text.not_mem_of_mem_splitOn member.1⟩

theorem IsStep.mem_properSegments_iff {segment : Text} (step : IsStep segment) :
    segment ∈ properSegments path ↔ segment ∈ segments path := by
  simp [properSegments, step.nonempty, step.not_here]

/-- Among the parts of a path only its root is no segment, and the root consists of slashes. -/
theorem IsStep.mem_parts_iff {segment : Text} (step : IsStep segment) :
    segment ∈ (Parsed.ofText path).parts ↔ segment ∈ properSegments path := by
  simp only [Parsed.parts]
  split
  case isTrue => rfl
  case isFalse rooted =>
    have rootless : segment ≠ List.replicate (Parsed.ofText path).slashes slash := by
      intro equal
      apply step.free
      rw [equal, List.mem_replicate]
      exact ⟨rooted, rfl⟩
    rw [List.mem_cons, or_iff_right rootless]
    rfl

theorem properSegments_append (path text : Text) :
    properSegments (path ++ slash :: text) = properSegments path ++ properSegments text := by
  simp only [properSegments, segments, Text.splitOn_append_separator, List.filter_append]

/-- The segments of names, with steps upwards or `.` among them, put together. -/
theorem properSegments_join {parts : List Text} (free : ∀ part ∈ parts, slash ∉ part) :
    properSegments (join parts) = parts.filter fun part => part != [] && part != here := by
  cases parts with
  | nil => rfl
  | cons first rest =>
    rw [properSegments, segments, join, Text.splitOn_joinWith (by simp) free]

theorem properSegments_names (named : ∀ name ∈ names, IsName name) :
    properSegments (join names) = names := by
  rw [properSegments_join fun name member => (named name member).free, List.filter_eq_self]
  intro name member
  simp [(named name member).nonempty, (named name member).not_here]

theorem rootSlashes_eq_zero_iff : rootSlashes path = 0 ↔ path.head? ≠ some slash := by
  cases path with
  | nil => simp [rootSlashes]
  | cons c rest =>
    by_cases equal : c = slash
    · simp only [equal, List.head?_cons, ne_eq, not_true, iff_false]
      rw [rootSlashes]
      split <;> simp_all
    · simp [rootSlashes, equal]

/-- The first name stands at the front. -/
theorem join_cons_eq_append (name : Text) (names : List Text) :
    ∃ tail, join (name :: names) = name ++ tail := by
  cases names with
  | nil => exact ⟨[], by simp [join, Text.joinWith]⟩
  | cons next rest => exact ⟨slash :: join (next :: rest), join_cons name (by simp)⟩

/-- The last name stands at the end. -/
theorem join_concat_eq_append (names : List Text) (name : Text) :
    ∃ head, join (names ++ [name]) = head ++ name := by
  cases names with
  | nil => exact ⟨[], by simp [join, Text.joinWith]⟩
  | cons first rest =>
    refine ⟨join (first :: rest) ++ [slash], ?_⟩
    rw [join_concat name (by simp)]
    simp

theorem join_ne_nil (nonempty : names ≠ []) (steps : ∀ name ∈ names, IsStep name) :
    join names ≠ [] := by
  cases names with
  | nil => exact absurd rfl nonempty
  | cons first rest =>
    obtain ⟨tail, split⟩ := join_cons_eq_append first rest
    simp [split, (steps first List.mem_cons_self).nonempty]

theorem head?_join_ne_slash (steps : ∀ name ∈ names, IsStep name) :
    (join names).head? ≠ some slash := by
  cases names with
  | nil => simp [join, Text.joinWith]
  | cons first rest =>
    have step := steps first List.mem_cons_self
    obtain ⟨tail, split⟩ := join_cons_eq_append first rest
    rw [split, List.head?_append_of_ne_nil _ step.nonempty]
    intro head
    exact step.free (List.mem_of_mem_head? head)

theorem getLast?_join_ne_slash (steps : ∀ name ∈ names, IsStep name) :
    (join names).getLast? ≠ some slash := by
  rcases List.eq_nil_or_concat names with rfl | ⟨before, last, rfl⟩
  · simp [join, Text.joinWith]
  · rw [List.concat_eq_append] at steps ⊢
    have step := steps last (by simp)
    obtain ⟨head, split⟩ := join_concat_eq_append before last
    rw [split, List.getLast?_append_of_ne_nil _ step.nonempty]
    intro final
    exact step.free (List.mem_of_getLast? final)

namespace IsCanonical

theorem ne_nil (canonical : IsCanonical path) : path ≠ [] := by
  rw [← join_segments path]
  exact join_ne_nil (Text.splitOn_ne_nil slash path) (isStep_of_names canonical.named)

theorem head?_ne_slash (canonical : IsCanonical path) : path.head? ≠ some slash := by
  rw [← join_segments path]
  exact head?_join_ne_slash (isStep_of_names canonical.named)

theorem getLast?_ne_slash (canonical : IsCanonical path) : path.getLast? ≠ some slash := by
  rw [← join_segments path]
  exact getLast?_join_ne_slash (isStep_of_names canonical.named)

/-- The names of a canonical path: those of its folder, and the last one. -/
theorem exists_names (canonical : IsCanonical path) :
    ∃ folders name, segments path = folders ++ [name] ∧ path = join (folders ++ [name]) ∧
      ∀ part ∈ folders ++ [name], IsName part := by
  rcases List.eq_nil_or_concat (segments path) with empty | ⟨folders, name, split⟩
  · exact absurd empty (Text.splitOn_ne_nil slash path)
  · rw [List.concat_eq_append] at split
    exact ⟨folders, name, split, by rw [← split, join_segments], split ▸ canonical.named⟩

end IsCanonical

/-! ## The stack of segments -/

/-- Names above steps upwards; a rooted path has no such steps. -/
def Settled (rooted : Bool) (stack : List Text) : Prop :=
  ∃ names count, stack = names ++ List.replicate count up ∧ (∀ name ∈ names, IsName name) ∧
    (rooted = true → count = 0)

/-- One more segment that says something keeps a stack settled. -/
theorem Settled.step {rooted : Bool} {stack : List Text} {segment : Text}
    (settled : Settled rooted stack) (nonempty : segment ≠ []) (notHere : segment ≠ here)
    (free : slash ∉ segment) : Settled rooted (step rooted stack segment) := by
  obtain ⟨names, count, rfl, named, rootless⟩ := settled
  by_cases climbs : segment = up
  · subst climbs
    cases names with
    | cons last below =>
      have name := named last List.mem_cons_self
      refine ⟨below, count, ?_, fun other member => named other (by simp [member]), rootless⟩
      simp [Path.step, name.not_up]
    | nil =>
      cases count with
      | succ count =>
        refine ⟨[], count + 2, ?_, by simp, fun rooted => absurd (rootless rooted) (by simp)⟩
        simp [Path.step, List.replicate_succ]
      | zero =>
        cases rooted with
        | true => exact ⟨[], 0, by simp [Path.step], by simp, fun _ => rfl⟩
        | false => exact ⟨[], 1, by simp [Path.step], by simp, by simp⟩
  · refine ⟨segment :: names, count, by simp [Path.step, climbs], ?_, rootless⟩
    intro name member
    rcases List.mem_cons.mp member with rfl | member
    · exact ⟨nonempty, notHere, climbs, free⟩
    · exact named name member

theorem Settled.foldl {rooted : Bool} {stack parts : List Text} (settled : Settled rooted stack)
    (proper : ∀ part ∈ parts, part ≠ [] ∧ part ≠ here ∧ slash ∉ part) :
    Settled rooted (parts.foldl (Path.step rooted) stack) := by
  induction parts generalizing stack with
  | nil => exact settled
  | cons part rest ih =>
    obtain ⟨nonempty, notHere, free⟩ := proper part List.mem_cons_self
    exact ih (settled.step nonempty notHere free) fun other member =>
      proper other (List.mem_cons_of_mem part member)

/-- The stack after all segments of a path. -/
def stack (path : Text) : List Text :=
  (properSegments path).foldl (step (rootSlashes path != 0)) []

theorem settled_stack (path : Text) : Settled (rootSlashes path != 0) (stack path) := by
  have start : Settled (rootSlashes path != 0) [] := ⟨[], 0, by simp, by simp, by simp⟩
  exact start.foldl fun part member => mem_properSegments member

theorem foldl_step_names {rooted : Bool} {stack : List Text}
    (named : ∀ name ∈ names, IsName name) :
    names.foldl (step rooted) stack = names.reverse ++ stack := by
  induction names generalizing stack with
  | nil => rfl
  | cons name rest ih =>
    have pushed : step rooted stack name = name :: stack := by
      simp [step, (named name List.mem_cons_self).not_up]
    rw [List.foldl_cons, pushed, ih fun other member => named other (by simp [member])]
    simp

/-- Steps upwards take the last names away. -/
theorem foldl_step_ups {rooted : Bool} {count : Nat} (named : ∀ name ∈ names, IsName name)
    (enough : count ≤ names.length) :
    (List.replicate count up).foldl (step rooted) names = names.drop count := by
  induction count generalizing names with
  | zero => rfl
  | succ count ih =>
    cases names with
    | nil => simp at enough
    | cons name rest =>
      have popped : step rooted (name :: rest) up = rest := by
        simp [step, (named name List.mem_cons_self).not_up]
      rw [List.replicate_succ, List.foldl_cons, popped, List.drop_succ_cons]
      exact ih (fun other member => named other (by simp [member])) (by simpa using enough)

/-! ## Normalized paths -/

theorem normalize_eq_stack (path : Text) :
    normalize path =
      match List.replicate (rootSlashes path) slash ++ join (stack path).reverse with
      | [] => here
      | result => result := rfl

theorem head?_normalize_of_rooted (rooted : rootSlashes path ≠ 0) :
    (normalize path).head? = some slash := by
  obtain ⟨count, equal⟩ := Nat.exists_eq_succ_of_ne_zero rooted
  simp [normalize_eq_stack, equal, List.replicate_succ]

/-- A relative path whose stack holds names only is those names put together. -/
theorem normalize_eq_join (relative : rootSlashes path = 0) (nonempty : names ≠ [])
    (named : ∀ name ∈ names, IsName name) (equal : stack path = names.reverse) :
    normalize path = join names := by
  rw [normalize_eq_stack, relative, equal, List.reverse_reverse, List.replicate_zero,
    List.nil_append]
  cases joined : join names with
  | nil => exact absurd joined (join_ne_nil nonempty (isStep_of_names named))
  | cons c rest => rfl

theorem IsCanonical.normalize_eq (canonical : IsCanonical path) : normalize path = path := by
  have named := canonical.named
  have nonempty : segments path ≠ [] := Text.splitOn_ne_nil slash path
  have proper : properSegments path = segments path := by
    have joined := properSegments_names named
    rwa [join_segments] at joined
  have relative : rootSlashes path = 0 := rootSlashes_eq_zero_iff.mpr canonical.head?_ne_slash
  have pushed : stack path = (segments path).reverse := by
    rw [stack, proper, foldl_step_names named, List.append_nil]
  rw [normalize_eq_join relative nonempty named pushed, join_segments]

/-- What a normalized path can be: rooted, `.`, canonical, or one that climbs. -/
theorem normalize_cases (path : Text) :
    (normalize path).head? = some slash ∨ normalize path = here ∨ IsCanonical (normalize path) ∨
      normalize path = up ∨ up ++ [slash] <+: normalize path := by
  by_cases relative : rootSlashes path = 0
  case neg => exact .inl (head?_normalize_of_rooted relative)
  obtain ⟨names, count, split, named, -⟩ := settled_stack path
  have reversed : ∀ name ∈ names.reverse, IsName name := fun name member =>
    named name (List.mem_reverse.mp member)
  cases count with
  | zero =>
    rw [List.replicate_zero, List.append_nil] at split
    by_cases empty : names = []
    · refine .inr (.inl ?_)
      simp [normalize_eq_stack, relative, split, empty, join, Text.joinWith]
    · refine .inr (.inr (.inl ?_))
      rw [normalize_eq_join relative (by simpa using empty) reversed (by simpa using split)]
      exact .of_names (by simpa using empty) reversed
  | succ count =>
    have front : (stack path).reverse = up :: (List.replicate count up ++ names.reverse) := by
      rw [split, List.reverse_append, List.reverse_replicate, List.replicate_succ,
        List.cons_append]
    by_cases alone : List.replicate count up ++ names.reverse = []
    · refine .inr (.inr (.inr (.inl ?_)))
      rw [normalize_eq_stack, relative, front, alone]
      rfl
    · refine .inr (.inr (.inr (.inr ?_)))
      rw [normalize_eq_stack, relative, front, join_cons up alone]
      exact ⟨join (List.replicate count up ++ names.reverse), by simp [up, Text.ofString]⟩

/-! ## Folders and relative spellings -/

theorem folder_concat (names : List Text) (name : Text)
    (named : ∀ part ∈ names ++ [name], IsName part) : folder (join (names ++ [name])) = join names := by
  have free : ∀ c ∈ name.reverse, decide (c ≠ slash) = true := by
    intro c member
    have present := List.mem_reverse.mp member
    exact decide_eq_true fun equal => (named name (by simp)).free (equal ▸ present)
  by_cases empty : names = []
  · subst empty
    have dropped : name.reverse.dropWhile (· ≠ slash) = [] := List.dropWhile_eq_nil_iff.mpr free
    simp only [folder, List.nil_append, join, Text.joinWith, List.intercalate_singleton, dropped]
    rfl
  · have before : ∀ part ∈ names, IsName part := fun part member => named part (by simp [member])
    have head : ((join (names ++ [name])).reverse.dropWhile (· ≠ slash)).reverse =
        join names ++ [slash] := by
      rw [join_concat name empty, List.reverse_append, List.reverse_cons, List.append_assoc,
        List.dropWhile_append_of_pos free]
      simp
    have mixed : (join names ++ [slash]).all (· = slash) = false := by
      cases joined : join names with
      | nil => exact absurd joined (join_ne_nil empty (isStep_of_names before))
      | cons c rest =>
        have apart : c ≠ slash := by
          have first := head?_join_ne_slash (isStep_of_names before)
          simpa [joined] using first
        simp [apart]
    have trimmed : (join names).rdropWhile (· = slash) = join names := by
      rw [List.rdropWhile_eq_self_iff]
      intro nonempty final
      have last := getLast?_join_ne_slash (isStep_of_names before)
      rw [List.getLast?_eq_some_getLast nonempty] at last
      exact last (by simpa using final)
    simp only [folder, head, mixed]
    rw [Text.trimEndBy_eq_rdropWhile, List.rdropWhile_concat_pos _ _ _ (by simp), trimmed]
    rfl

theorem append_join (named : ∀ name ∈ names, IsName name) (relative : text.head? ≠ some slash) :
    append (join names) text = if names = [] then text else join names ++ slash :: text := by
  have unrooted : Text.startsWith text [slash] = false := by
    rw [Bool.eq_false_iff, ne_eq, Text.startsWith_singleton]
    exact relative
  have unclosed : Text.endsWith (join names) [slash] = false := by
    rw [Bool.eq_false_iff, ne_eq, Text.endsWith_singleton]
    exact getLast?_join_ne_slash (isStep_of_names named)
  by_cases empty : names = []
  · simp [append, unrooted, empty, join, Text.joinWith]
  · simp [append, unrooted, unclosed, empty, join_ne_nil empty (isStep_of_names named)]

/-- A relative text seen from a folder: the folder's names come first. -/
theorem properSegments_append_join (named : ∀ name ∈ names, IsName name)
    (relative : text.head? ≠ some slash) :
    properSegments (append (join names) text) = names ++ properSegments text := by
  rw [append_join named relative]
  by_cases empty : names = []
  · simp [empty]
  · rw [if_neg empty, properSegments_append, properSegments_names named]

theorem rootSlashes_append_join (named : ∀ name ∈ names, IsName name)
    (relative : text.head? ≠ some slash) : rootSlashes (append (join names) text) = 0 := by
  rw [append_join named relative, rootSlashes_eq_zero_iff]
  by_cases empty : names = []
  · simpa [empty] using relative
  · rw [if_neg empty, List.head?_append_of_ne_nil _ (join_ne_nil empty (isStep_of_names named))]
    exact head?_join_ne_slash (isStep_of_names named)

/-- The spelling that climbs some folders and then goes down names; without climbing it begins with `./`. -/
def climb (count : Nat) (names : List Text) : Text :=
  join ((if count = 0 then [here] else List.replicate count up) ++ names)

/-- The spelling leads from the folder of the importer to the file: up to a folder above both, then down. -/
def IsRelativeSpelling (importer file spelling : Text) : Prop :=
  ∃ above below name names, segments importer = above ++ below ++ [name] ∧
    segments file = above ++ names ∧ names ≠ [] ∧ spelling = climb below.length names

theorem properSegments_climb {count : Nat} (named : ∀ name ∈ names, IsName name) :
    properSegments (climb count names) = List.replicate count up ++ names := by
  have kept : names.filter (fun part => part != [] && part != here) = names := by
    rw [List.filter_eq_self]
    intro name member
    simp [(named name member).nonempty, (named name member).not_here]
  cases count with
  | zero =>
    have free : ∀ part ∈ here :: names, slash ∉ part := by
      intro part member
      rcases List.mem_cons.mp member with rfl | name
      · decide
      · exact (named part name).free
    rw [climb, if_pos rfl, List.singleton_append, properSegments_join free,
      List.filter_cons_of_neg (by decide), kept]
    rfl
  | succ count =>
    have free : ∀ part ∈ List.replicate (count + 1) up ++ names, slash ∉ part := by
      intro part member
      rcases List.mem_append.mp member with front | name
      · rw [List.eq_of_mem_replicate front]
        decide
      · exact (named part name).free
    have climbs : (List.replicate (count + 1) up).filter (fun part => part != [] && part != here) =
        List.replicate (count + 1) up := List.filter_replicate_of_pos (by decide)
    rw [climb, if_neg (by simp), properSegments_join free, List.filter_append, climbs, kept]

theorem head?_climb (count : Nat) (names : List Text) :
    (climb count names).head? = some (Codepoint.char '.') := by
  cases count with
  | zero =>
    obtain ⟨tail, split⟩ := join_cons_eq_append here names
    rw [climb, if_pos rfl, List.singleton_append, split]
    rfl
  | succ count =>
    obtain ⟨tail, split⟩ := join_cons_eq_append up (List.replicate count up ++ names)
    rw [climb, if_neg (by simp), List.replicate_succ, List.cons_append, split]
    rfl

/-- Climbing out of folders and going down from there leads to what lies there. -/
theorem normalize_append_climb {above below : List Text} (nonempty : names ≠ [])
    (folders : ∀ name ∈ above ++ below, IsName name) (named : ∀ name ∈ names, IsName name) :
    normalize (append (join (above ++ below)) (climb below.length names)) =
      join (above ++ names) := by
  have relative : (climb below.length names).head? ≠ some slash := by
    rw [head?_climb]
    decide
  have start := rootSlashes_append_join folders relative
  have all : ∀ name ∈ above ++ names, IsName name := by
    intro name member
    rcases List.mem_append.mp member with first | second
    · exact folders name (List.mem_append_left below first)
    · exact named name second
  have pushed : stack (append (join (above ++ below)) (climb below.length names)) =
      (above ++ names).reverse := by
    have reversed : ∀ name ∈ (above ++ below).reverse, IsName name := fun name member =>
      folders name (List.mem_reverse.mp member)
    rw [stack, properSegments_append_join folders relative, properSegments_climb named,
      List.foldl_append, List.foldl_append, foldl_step_names folders, List.append_nil,
      foldl_step_ups reversed (by simp), foldl_step_names named, List.reverse_append,
      List.drop_left' (by simp), List.reverse_append]
  exact normalize_eq_join start (by simp [nonempty]) all pushed

/-! ## Suffixes of names -/

theorem suffixOfName_append {stem extension : Text} (stemmed : stem ≠ [])
    (nonempty : extension ≠ []) (free : Codepoint.char '.' ∉ extension) :
    suffixOfName (stem ++ Codepoint.char '.' :: extension) = Codepoint.char '.' :: extension := by
  have tail : ((stem ++ Codepoint.char '.' :: extension).reverse.takeWhile
      (· ≠ Codepoint.char '.')).reverse = extension := by
    have passed : ∀ c ∈ extension.reverse, decide (c ≠ Codepoint.char '.') = true := by
      intro c member
      have present := List.mem_reverse.mp member
      exact decide_eq_true fun equal => free (equal ▸ present)
    rw [List.reverse_append, List.reverse_cons, List.append_assoc,
      List.takeWhile_append_of_pos passed]
    simp
  have longer : 0 < stem.length := List.length_pos_iff.mpr stemmed
  simp only [suffixOfName, tail]
  rw [if_pos]
  simp [nonempty]
  omega

theorem suffix_concat {name : Text} (named : ∀ part ∈ names ++ [name], IsName part) :
    suffix (join (names ++ [name])) = suffixOfName name := by
  simp [suffix, Parsed.name, Parsed.ofText, properSegments_names named]

/-- What is written behind a path without a slash lengthens its last name. -/
theorem join_concat_append (names : List Text) (name text : Text) :
    join (names ++ [name]) ++ text = join (names ++ [name ++ text]) := by
  by_cases empty : names = []
  · simp [empty, join, Text.joinWith]
  · rw [join_concat name empty, join_concat (name ++ text) empty]
    simp

/-! ## Code points of paths -/

theorem mem_join {parts : List Text} {c : Codepoint} (member : c ∈ join parts) :
    c = slash ∨ ∃ part ∈ parts, c ∈ part := by
  induction parts with
  | nil => simp [join, Text.joinWith] at member
  | cons first rest ih =>
    by_cases empty : rest = []
    · subst empty
      exact .inr ⟨first, by simp, by simpa [join, Text.joinWith] using member⟩
    · rw [join_cons first empty, List.mem_append, List.mem_cons] at member
      rcases member with inside | separator | later
      · exact .inr ⟨first, by simp, inside⟩
      · exact .inl separator
      · rcases ih later with separator | ⟨part, listed, inside⟩
        · exact .inl separator
        · exact .inr ⟨part, by simp [listed], inside⟩

theorem mem_join_of_mem {parts : List Text} {part : Text} {c : Codepoint} (listed : part ∈ parts)
    (inside : c ∈ part) : c ∈ join parts := by
  induction parts with
  | nil => simp at listed
  | cons first rest ih =>
    by_cases empty : rest = []
    · subst empty
      rw [List.mem_singleton.mp listed] at inside
      simpa [join, Text.joinWith] using inside
    · rw [join_cons first empty, List.mem_append, List.mem_cons]
      rcases List.mem_cons.mp listed with rfl | later
      · exact .inl inside
      · exact .inr (.inr (ih later))

theorem mem_climb {count : Nat} {c : Codepoint} (member : c ∈ climb count names) :
    c = slash ∨ c = Codepoint.char '.' ∨ ∃ name ∈ names, c ∈ name := by
  rcases mem_join member with separator | ⟨part, listed, inside⟩
  · exact .inl separator
  · rcases List.mem_append.mp listed with front | name
    · refine .inr (.inl ?_)
      split at front
      next => simpa [List.mem_singleton.mp front, here, Text.ofString] using inside
      next => simpa [List.eq_of_mem_replicate front, up, Text.ofString] using inside
    · exact .inr (.inr ⟨part, name, inside⟩)

theorem getLast?_join_append {front : List Text} (nonempty : names ≠ [])
    (named : ∀ name ∈ names, IsName name) :
    (join (front ++ names)).getLast? = (join names).getLast? := by
  obtain rfl | ⟨before, last, rfl⟩ := List.eq_nil_or_concat names
  · exact absurd rfl nonempty
  · rw [List.concat_eq_append] at named ⊢
    have name := named last (by simp)
    obtain ⟨head, split⟩ := join_concat_eq_append before last
    obtain ⟨longer, whole⟩ := join_concat_eq_append (front ++ before) last
    rw [← List.append_assoc, whole, split, List.getLast?_append_of_ne_nil _ name.nonempty,
      List.getLast?_append_of_ne_nil _ name.nonempty]

namespace IsRelativeSpelling

variable {importer file spelling : Text}

theorem mem (spelled : IsRelativeSpelling importer file spelling) {c : Codepoint}
    (member : c ∈ spelling) : c = slash ∨ c = Codepoint.char '.' ∨ c ∈ file := by
  obtain ⟨above, below, name, names, -, down, -, rfl⟩ := spelled
  rcases mem_climb member with separator | point | ⟨part, listed, inside⟩
  · exact .inl separator
  · exact .inr (.inl point)
  · refine .inr (.inr ?_)
    rw [← join_segments file, down]
    exact mem_join_of_mem (List.mem_append_right above listed) inside

theorem head? (spelled : IsRelativeSpelling importer file spelling) :
    spelling.head? = some (Codepoint.char '.') := by
  obtain ⟨above, below, name, names, -, -, -, rfl⟩ := spelled
  exact head?_climb below.length names

theorem getLast? (spelled : IsRelativeSpelling importer file spelling) (canonical : IsCanonical file) :
    spelling.getLast? = file.getLast? := by
  obtain ⟨above, below, name, names, -, down, nonempty, rfl⟩ := spelled
  have named : ∀ part ∈ names, IsName part := fun part member =>
    canonical.named part (by rw [down]; exact List.mem_append_right above member)
  rw [climb, getLast?_join_append nonempty named, ← join_segments file, down,
    getLast?_join_append nonempty named]

/-- The spelling, read from the importer's folder, is the file. -/
theorem normalize_eq (spelled : IsRelativeSpelling importer file spelling)
    (importing : IsCanonical importer) (canonical : IsCanonical file) :
    normalize (append (folder importer) spelling) = file := by
  obtain ⟨above, below, name, names, up, down, nonempty, rfl⟩ := spelled
  have parts : ∀ part ∈ above ++ below ++ [name], IsName part := up ▸ importing.named
  have named : ∀ part ∈ names, IsName part := fun part member =>
    canonical.named part (by rw [down]; exact List.mem_append_right above member)
  have inside : folder importer = join (above ++ below) := by
    rw [← join_segments importer, up, folder_concat _ _ parts]
  rw [inside, normalize_append_climb nonempty _ named, ← down, join_segments]
  exact fun part member => parts part (List.mem_append_left _ member)

end IsRelativeSpelling

end Deadwood.Path
