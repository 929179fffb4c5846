import Mathlib.Data.List.DropRight
import Mathlib.Data.List.Lex
import Mathlib.Data.List.Sort
import Deadwood.Text.Blank

/-!
# Laws of texts

The Boolean tests on texts say that one list of code points begins, ends or
occurs in another.  Splitting at a separator and joining with it undo each
other, trimming leaves no blank at either end, and a sorted set has the members
of the list that it was made from, in strictly increasing order.
-/

namespace Deadwood

variable {text other : Text}

namespace Text

/-! ## Beginnings, ends and occurrences -/

theorem startsWith_iff : startsWith text other = true ↔ other <+: text :=
  List.isPrefixOf_iff_prefix

theorem startsWith_eq_false : startsWith text other = false ↔ ¬ other <+: text := by
  rw [Bool.eq_false_iff, ne_eq, startsWith_iff]

theorem endsWith_iff : endsWith text other = true ↔ other <:+ text :=
  List.isSuffixOf_iff_suffix

theorem startsWith_singleton {c : Codepoint} :
    startsWith text [c] = true ↔ text.head? = some c := by
  rw [startsWith_iff]
  cases text with
  | nil => simp
  | cons d rest => simp [eq_comm]

theorem startsWith_singleton_eq_false {c : Codepoint} :
    startsWith text [c] = false ↔ text.head? ≠ some c := by
  rw [Bool.eq_false_iff, ne_eq, startsWith_singleton]

theorem endsWith_singleton {c : Codepoint} :
    endsWith text [c] = true ↔ text.getLast? = some c := by
  rw [endsWith_iff, ← List.reverse_prefix, ← startsWith_iff, List.reverse_singleton,
    startsWith_singleton, List.head?_reverse]

theorem contains_iff : contains text other = true ↔ other <:+: text := by
  induction text with
  | nil => simp [contains]
  | cons c rest ih => simp [contains, List.infix_cons_iff, ih]

/-- Across a code point that it does not have, a text neither begins nor goes on. -/
theorem prefix_of_separator {separator : Codepoint} {more : Text} (free : separator ∉ other)
    (begins : other <+: text ++ separator :: more) : other <+: text := by
  rcases List.prefix_or_prefix_of_prefix begins (List.prefix_append text _) with inside | beyond
  · exact inside
  · obtain ⟨rest, rfl⟩ := beyond
    rw [List.prefix_append_right_inj] at begins
    cases rest with
    | nil => simp
    | cons c rest =>
      rw [List.cons_prefix_cons] at begins
      exact absurd (by simp [begins.1]) free

/-- A text that occurs beside a code point it does not have occurs on one side of it. -/
theorem infix_of_separator {separator : Codepoint} {more : Text} (free : separator ∉ other)
    (occurs : other <:+: text ++ separator :: more) : other <:+: text ∨ other <:+: more := by
  induction text with
  | nil =>
    rcases List.infix_cons_iff.mp occurs with begins | later
    · exact .inl (prefix_of_separator free begins).isInfix
    · exact .inr later
  | cons c rest ih =>
    rcases List.infix_cons_iff.mp occurs with begins | later
    · exact .inl (prefix_of_separator free begins).isInfix
    · rcases ih later with before | behind
      · exact .inl (List.infix_cons before)
      · exact .inr behind

/-! ## Splitting and joining -/

theorem splitOn_eq_list_splitOn (separator : Codepoint) (text : Text) :
    splitOn separator text = List.splitOn separator text := by
  induction text with
  | nil => rfl
  | cons c rest ih =>
    rw [List.splitOn_cons_eq_if_modifyHead, splitOn, ih]
    by_cases equal : c = separator
    · simp [equal]
    · cases split : List.splitOn separator rest with
      | nil => exact absurd split (List.splitOn_ne_nil separator rest)
      | cons piece pieces => simp [equal]

@[simp] theorem splitOn_ne_nil (separator : Codepoint) (text : Text) :
    splitOn separator text ≠ [] := by
  rw [splitOn_eq_list_splitOn]
  exact List.splitOn_ne_nil separator text

/-- Text between separators is split off on its own. -/
theorem splitOn_append_separator (separator : Codepoint) (text other : Text) :
    splitOn separator (text ++ separator :: other) =
      splitOn separator text ++ splitOn separator other := by
  simp only [splitOn_eq_list_splitOn]
  exact List.splitOn_append_cons_self text other

theorem joinWith_splitOn (separator : Codepoint) (text : Text) :
    joinWith [separator] (splitOn separator text) = text := by
  rw [splitOn_eq_list_splitOn]
  exact List.intercalate_splitOn separator

theorem mem_of_mem_splitOn {c separator : Codepoint} {text piece : Text}
    (part : piece ∈ splitOn separator text) (member : c ∈ piece) : c ∈ text := by
  induction text generalizing piece with
  | nil => simp_all [splitOn]
  | cons first rest ih =>
    rw [splitOn] at part
    split at part
    · grind
    · grind

theorem splitOn_joinWith {separator : Codepoint} {pieces : List Text} (nonempty : pieces ≠ [])
    (free : ∀ piece ∈ pieces, separator ∉ piece) :
    splitOn separator (joinWith [separator] pieces) = pieces := by
  rw [splitOn_eq_list_splitOn]
  exact List.splitOn_intercalate separator free nonempty

theorem not_mem_of_mem_splitOn {separator : Codepoint} {piece : Text}
    (member : piece ∈ splitOn separator text) : separator ∉ piece := by
  induction text generalizing piece with
  | nil =>
    simp only [splitOn, List.mem_singleton] at member
    simp [member]
  | cons c rest ih =>
    cases split : splitOn separator rest with
    | nil => exact absurd split (splitOn_ne_nil separator rest)
    | cons first pieces =>
      rw [split] at ih
      by_cases equal : c = separator
      · simp only [splitOn, equal, if_true, split, List.mem_cons] at member
        rcases member with rfl | member
        · simp
        · exact ih (List.mem_cons.mpr member)
      · simp only [splitOn, equal, if_false, split, List.mem_cons] at member
        rcases member with rfl | member
        · rw [List.mem_cons, not_or]
          exact ⟨fun same => equal same.symm, ih List.mem_cons_self⟩
        · exact ih (List.mem_cons_of_mem first member)

/-! ## Trimming -/

theorem drop_takeWhile (p : Codepoint → Bool) (text : Text) :
    text.drop (text.takeWhile p).length = text.dropWhile p := by
  induction text with
  | nil => rfl
  | cons c rest ih =>
    by_cases taken : p c = true
    · simpa [taken] using ih
    · simp [taken]

theorem trimEndBy_eq_rdropWhile (p : Codepoint → Bool) (text : Text) :
    trimEndBy p text = text.rdropWhile p := rfl

theorem trimStartBy_eq_self {p : Codepoint → Bool} (first : ∀ c ∈ text.head?, p c = false) :
    trimStartBy p text = text := by
  cases text with
  | nil => rfl
  | cons c rest => simp [trimStartBy, first c (by simp)]

theorem trimEndBy_eq_self {p : Codepoint → Bool} (last : ∀ c ∈ text.getLast?, p c = false) :
    trimEndBy p text = text := by
  rw [trimEndBy_eq_rdropWhile, List.rdropWhile_eq_self_iff]
  intro nonempty
  simp [last _ (List.getLast?_eq_some_getLast nonempty)]

/-- A text whose two ends are no blanks stays as it is when it is trimmed. -/
theorem trim_eq_self (first : ∀ c ∈ text.head?, c.isBlank = false)
    (last : ∀ c ∈ text.getLast?, c.isBlank = false) : trim text = text := by
  rw [trim, trimStartBy_eq_self first, trimEndBy_eq_self last]

theorem trim_isInfix (text : Text) : trim text <:+: text :=
  (List.rdropWhile_prefix _ _).isInfix.trans (List.dropWhile_suffix _).isInfix

theorem mem_of_mem_trim {c : Codepoint} (member : c ∈ trim text) : c ∈ text :=
  (trim_isInfix text).subset member

theorem head?_trim {c : Codepoint} (head : c ∈ (trim text).head?) : c.isBlank = false := by
  obtain ⟨tail, split⟩ : trim text <+: trimStartBy Codepoint.isBlank text :=
    List.rdropWhile_prefix _ _
  cases trimmed : trim text with
  | nil => simp [trimmed] at head
  | cons d rest =>
    simp only [trimmed, List.head?_cons, Option.mem_def, Option.some.injEq] at head
    rw [trimmed, List.cons_append] at split
    have found := List.head?_dropWhile_not Codepoint.isBlank text
    rw [show text.dropWhile Codepoint.isBlank = d :: (rest ++ tail) from split.symm] at found
    simpa [head] using found

theorem getLast?_trim {c : Codepoint} (last : c ∈ (trim text).getLast?) :
    c.isBlank = false := by
  have nonempty : trim text ≠ [] := by
    intro empty
    simp [empty] at last
  have found := List.rdropWhile_last_not Codepoint.isBlank
    (trimStartBy Codepoint.isBlank text) nonempty
  rw [Option.mem_def, List.getLast?_eq_some_getLast nonempty, Option.some.injEq] at last
  rw [← last]
  exact eq_false_of_ne_true found

end Text

/-! ## Order and sets -/

theorem Codepoint.value_injective : Function.Injective Codepoint.value := by
  intro left right equal
  cases left with
  | char c =>
    cases right with
    | char d => exact congrArg char (Char.ext (UInt32.toNat_inj.mp equal))
    | surrogate index =>
      have valid := c.valid
      simp only [value, Char.toNat] at equal
      simp only [UInt32.isValidChar, Nat.isValidChar] at valid
      omega
  | surrogate index =>
    cases right with
    | char d =>
      have valid := d.valid
      simp only [value, Char.toNat] at equal
      simp only [UInt32.isValidChar, Nat.isValidChar] at valid
      omega
    | surrogate other =>
      simp only [value] at equal
      exact congrArg surrogate (Fin.ext (by omega))

namespace Text

/-- The order of texts is the lexicographic order of the numbers of their code points. -/
theorem le_iff : le text other = true ↔ text.map Codepoint.value ≤ other.map Codepoint.value := by
  rw [← not_lt]
  induction text generalizing other with
  | nil => cases other <;> simp [le, compare]
  | cons c rest ih =>
    cases other with
    | nil => simp [le, compare]
    | cons d more =>
      have later := @ih more
      simp only [le, compare, List.map_cons, List.cons_lt_cons_iff] at later ⊢
      rcases Nat.lt_trichotomy c.value d.value with less | equal | greater
      · simp [Nat.compare_eq_lt.mpr less]
        omega
      · simpa [equal] using later
      · simp [Nat.compare_eq_gt.mpr greater, greater]

instance : Std.Total (fun text other : Text => le text other = true) where
  total text other := by
    simp only [le_iff]
    exact le_total _ _

instance : IsTrans Text (fun text other => le text other = true) where
  trans text other third := by
    simp only [le_iff]
    exact le_trans

instance : Std.Antisymm (fun text other : Text => le text other = true) where
  antisymm text other := by
    simp only [le_iff]
    intro below above
    exact List.map_injective_iff.mpr Codepoint.value_injective (le_antisymm below above)

theorem compare_swap (text other : Text) : (compare text other).swap = compare other text := by
  induction text generalizing other with
  | nil => cases other <;> rfl
  | cons c rest ih =>
    cases other with
    | nil => rfl
    | cons d more =>
      simp only [compare]
      rw [Ordering.swap_then, ih, Nat.compare_swap]

theorem compare_eq_lt : compare text other = .lt ↔ text.map Codepoint.value < other.map Codepoint.value := by
  rw [← not_le, ← le_iff, le, ← compare_swap text other]
  cases compare text other <;> decide

/-- A text comes before those that begin with it. -/
theorem le_append (text rest : Text) : le text (text ++ rest) = true := by
  induction text with
  | nil => cases rest <;> rfl
  | cons c text ih => simpa [le, compare] using ih

theorem compare_eq_lt_of_le (below : le text other = true) (differ : text ≠ other) : compare text other = .lt := by
  rw [compare_eq_lt]
  apply lt_of_le_of_ne (le_iff.mp below)
  intro equal
  exact differ (List.map_injective_iff.mpr Codepoint.value_injective equal)

/-- Sorting by insertion gives the same list; unlike merging it unfolds on closed lists. -/
theorem mergeSort_eq_insertionSort (texts : List Text) :
    texts.mergeSort le = texts.insertionSort (fun text other => le text other = true) := by
  have sorted := List.mergeSort_eq_insertionSort
    (fun text other : Text => le text other = true) texts
  simpa using sorted

private theorem mem_eraseReps_loop {first : Text} {texts found : List Text} :
    text ∈ List.eraseRepsBy.loop (· == ·) first texts found ↔
      text ∈ found ∨ text = first ∨ text ∈ texts := by
  induction texts generalizing first found with
  | nil => simp [List.eraseRepsBy.loop, or_comm]
  | cons next rest ih =>
    rw [List.eraseRepsBy.loop]
    by_cases equal : first = next
    · simp [equal, ih]
    · rw [beq_false_of_ne equal]
      simp only [ih, List.mem_cons]
      tauto

theorem mem_sortedSet {texts : List Text} : text ∈ sortedSet texts ↔ text ∈ texts := by
  have sorted : text ∈ texts.mergeSort le ↔ text ∈ texts := List.mem_mergeSort
  rw [← sorted, sortedSet]
  cases texts.mergeSort le with
  | nil => simp [List.eraseReps, List.eraseRepsBy]
  | cons first rest =>
    rw [List.eraseReps, List.eraseRepsBy, mem_eraseReps_loop]
    simp

private theorem pairwise_eraseReps_loop {first : Text} {texts found : List Text}
    (before : (first :: found).Pairwise fun later earlier => compare earlier later = .lt)
    (sorted : (first :: texts).Pairwise fun earlier later => le earlier later = true) :
    (List.eraseRepsBy.loop (· == ·) first texts found).Pairwise fun earlier later => compare earlier later = .lt := by
  induction texts generalizing first found with
  | nil => exact List.pairwise_reverse.mpr before
  | cons next rest ih =>
    obtain ⟨least, others⟩ := List.pairwise_cons.mp sorted
    rw [List.eraseRepsBy.loop]
    by_cases equal : first = next
    · subst equal
      rw [beq_self_eq_true]
      exact ih before others
    · rw [beq_false_of_ne equal]
      have step := compare_eq_lt_of_le (least next List.mem_cons_self) equal
      apply ih _ others
      apply List.pairwise_cons.mpr
      refine ⟨?_, before⟩
      intro earlier member
      rcases List.mem_cons.mp member with rfl | member
      · exact step
      · have lower := (List.pairwise_cons.mp before).1 earlier member
        rw [compare_eq_lt] at lower step ⊢
        exact lt_trans lower step

theorem pairwise_mergeSort (texts : List Text) :
    (texts.mergeSort le).Pairwise fun earlier later => le earlier later = true := by
  rw [mergeSort_eq_insertionSort]
  exact List.pairwise_insertionSort _ texts

/-- Sorting lists different texts in strictly increasing order. -/
theorem pairwise_mergeSort_of_nodup {texts : List Text} (distinct : texts.Nodup) :
    (texts.mergeSort le).Pairwise fun earlier later => compare earlier later = .lt := by
  have differ : (texts.mergeSort le).Nodup := (List.mergeSort_perm texts le).nodup_iff.mpr distinct
  exact ((pairwise_mergeSort texts).and differ).imp fun both => compare_eq_lt_of_le both.1 both.2

/-- A sorted set lists its members in strictly increasing order. -/
theorem pairwise_sortedSet (texts : List Text) :
    (sortedSet texts).Pairwise fun earlier later => compare earlier later = .lt := by
  have sorted := pairwise_mergeSort texts
  rw [sortedSet]
  cases ordered : texts.mergeSort le with
  | nil => exact List.Pairwise.nil
  | cons first rest =>
    rw [ordered] at sorted
    exact pairwise_eraseReps_loop (List.pairwise_singleton _ first) sorted

theorem nodup_of_pairwise {texts : List Text}
    (increasing : texts.Pairwise fun earlier later => compare earlier later = .lt) : texts.Nodup := by
  apply increasing.imp
  rintro earlier later step rfl
  rw [compare_eq_lt] at step
  exact lt_irrefl _ step

end Text

end Deadwood
