import Mathlib.Data.List.Infix
import Deadwood.Proofs.Stylesheet

/-!
# Blanks inside `url(...)`

Blanks may stand on both sides of what a `url(...)` encloses.  In a property
they never matter.  Behind `@import` they are taken for a part of the reference:
at the two sides of a bare path they are trimmed away afterwards, but before a
quote they are the whole reference, and the quoted path is lost.
-/

namespace Deadwood

namespace Text

variable {text before after : Text}

/-- Blanks around a text that begins and ends with none are trimmed away. -/
theorem trim_between (nonempty : text ≠ []) (trimmed : trim text = text)
    (leads : ∀ c ∈ before, c.isBlank = true) (trails : ∀ c ∈ after, c.isBlank = true) :
    trim (before ++ text ++ after) = text := by
  have first : ∀ c ∈ (text ++ after).head?, c.isBlank = false := by
    rw [List.head?_append_of_ne_nil text nonempty, ← trimmed]
    exact fun c => head?_trim
  have last : ∀ c ∈ text.getLast?, c.isBlank = false := by
    rw [← trimmed]
    exact fun c => getLast?_trim
  have front : trimStartBy Codepoint.isBlank (before ++ text ++ after) = text ++ after := by
    rw [List.append_assoc, trimStartBy, List.dropWhile_append_of_pos leads]
    exact trimStartBy_eq_self first
  have back : trimEndBy Codepoint.isBlank (text ++ after) = trimEndBy Codepoint.isBlank text := by
    rw [trimEndBy, List.reverse_append, List.dropWhile_append_of_pos (by simpa using trails)]
    rfl
  rw [trim, front, back, trimEndBy_eq_self last]

end Text

namespace Stylesheet

variable {path before after text tail : Text} {found : Found}

/-! ## Blanks in a reference -/

theorem not_mem_reserved_of_isBlank {c : Codepoint} (blank : c.isBlank = true) : c ∉ reserved := by
  intro listed
  have solid : ∀ d ∈ reserved, d.isBlank = false := by decide
  rw [solid c listed] at blank
  cases blank

/-- Blanks alone can be read as a reference. -/
theorem isRaw_of_isBlank (nonempty : before ≠ []) (leads : ∀ c ∈ before, c.isBlank = true) :
    IsRaw before := by
  refine ⟨nonempty, fun c member => ?_⟩
  rw [← Bool.not_eq_false]
  intro outside
  exact not_mem_reserved_of_isBlank (leads c member) (mem_reserved.mpr (.inl outside))

/-- But they name nothing. -/
theorem projectPath_of_isBlank (read : IsRaw before) (leads : ∀ c ∈ before, c.isBlank = true) :
    projectPath before = none := by
  cases named : projectPath before with
  | none => rfl
  | some path =>
    obtain ⟨plain, within⟩ := isPlain_of_projectPath read named
    obtain ⟨c, more, rfl⟩ := List.exists_cons_of_ne_nil plain.nonempty
    have solid := plain.solid_head c rfl
    rw [leads c (within.subset List.mem_cons_self)] at solid
    cases solid

namespace IsPlain

/-- Blanks around a plain path add nothing that a path must not hold. -/
theorem free_between (plain : IsPlain path) (leads : ∀ c ∈ before, c.isBlank = true)
    (trails : ∀ c ∈ after, c.isBlank = true) : ∀ c ∈ reserved, c ∉ before ++ path ++ after := by
  intro c listed member
  simp only [List.mem_append] at member
  rcases member with (lead | inner) | trail
  · exact not_mem_reserved_of_isBlank (leads c lead) listed
  · exact plain.free c listed inner
  · exact not_mem_reserved_of_isBlank (trails c trail) listed

theorem isRaw_between (plain : IsPlain path) (leads : ∀ c ∈ before, c.isBlank = true)
    (trails : ∀ c ∈ after, c.isBlank = true) : IsRaw (before ++ path ++ after) := by
  constructor
  · simp [plain.nonempty]
  · intro c member
    rw [← Bool.not_eq_false]
    intro outside
    exact plain.free_between leads trails c (mem_reserved.mpr (.inl outside)) member

/-- A plain path is named whatever blanks stand around it. -/
theorem projectPath_between (plain : IsPlain path) (leads : ∀ c ∈ before, c.isBlank = true)
    (trails : ∀ c ∈ after, c.isBlank = true) : projectPath (before ++ path ++ after) = some path := by
  have free := plain.free_between leads trails
  have written : isComputed (before ++ path ++ after) = false :=
    isComputed_eq_false.mpr ⟨free _ (by decide), free _ (by decide), free _ (by decide)⟩
  have whole : (before ++ path ++ after).takeWhile
      (fun c => c != Codepoint.char '?' && c != Codepoint.char '#') = before ++ path ++ after := by
    rw [List.takeWhile_eq_self_iff]
    intro c member
    simp only [Bool.and_eq_true, bne_iff_ne]
    constructor
    · exact ne_of_mem_of_not_mem member (free _ (by decide))
    · exact ne_of_mem_of_not_mem member (free _ (by decide))
  have named : pathOf (before ++ path ++ after) = path := by
    rw [pathOf, whole]
    exact Text.trim_between plain.nonempty plain.trimmed leads trails
  have same := plain.projectPath_eq
  simp only [projectPath, plain.pathOf_eq] at same
  split at same
  case isTrue => cases same
  case isFalse =>
    simp only [projectPath, written, named]
    exact same

end IsPlain

/-! ## Text without keywords -/

theorem ne_nil_of_mem_keywords {keyword : Text} (listed : keyword ∈ keywords) : keyword ≠ [] := by
  rintro rfl
  exact absurd listed (by decide)

theorem idle_of_absent (absent : ∀ keyword ∈ keywords, ∀ c ∈ keyword, c ∉ text) : Idle text := by
  intro part member nonempty keyword listed
  have later : part <:+ text := (List.mem_tails part text).mp member
  constructor
  · intro begins
    obtain ⟨c, more, rfl⟩ := List.exists_cons_of_ne_nil nonempty
    exact absent keyword listed c (begins.subset List.mem_cons_self) (later.subset List.mem_cons_self)
  · intro begins
    obtain ⟨c, more, rfl⟩ := List.exists_cons_of_ne_nil (ne_nil_of_mem_keywords listed)
    exact absent _ listed c List.mem_cons_self (later.subset (begins.subset List.mem_cons_self))

theorem paths_eq_nil (idle : Idle text) : paths text = [] := by
  have passed := paths_idle idle []
  rwa [List.append_nil, paths_nil] at passed

/-- Neither quotes and blanks nor what closes a `url(...)` and its statement belong to a keyword. -/
theorem absent_closing {quote : Codepoint} (quoted : isQuote quote = true)
    (trails : ∀ c ∈ after, c.isBlank = true) :
    ∀ keyword ∈ keywords, ∀ c ∈ keyword, c ∉ quote :: (after ++ Text.ofString ");") := by
  intro keyword listed c held member
  have solid : ∀ keyword ∈ keywords, ∀ c ∈ keyword,
      isQuote c = false ∧ c.isBlank = false ∧ c ∉ Text.ofString ");" := by
    decide
  obtain ⟨unquoted, unblank, outside⟩ := solid keyword listed c held
  rw [List.mem_cons, List.mem_append] at member
  rcases member with rfl | trail | closing
  · rw [quoted] at unquoted
    cases unquoted
  · rw [trails c trail] at unblank
    cases unblank
  · exact outside closing

/-- A path that ends before a quote is not read again from its own text: behind a keyword in it, too little
of it is left. -/
theorem not_mem_paths_self {quote : Codepoint} (unquoted : quote ∉ path)
    (absent : ∀ keyword ∈ keywords, ∀ c ∈ keyword, c ∉ quote :: tail) :
    path ∉ paths (path ++ quote :: tail) := by
  intro member
  obtain ⟨spots, listed, marks, -⟩ := occur_paths (path ++ quote :: tail)
  rw [← listed] at member
  obtain ⟨spot, among, same⟩ := List.mem_map.mp member
  obtain ⟨⟨keyword, known, begins, behind⟩, placed⟩ := marks spot among
  obtain ⟨c, more, rfl⟩ := List.exists_cons_of_ne_nil (ne_nil_of_mem_keywords known)
  have apart := absent _ known c List.mem_cons_self
  rw [same, List.drop_append] at placed
  rw [List.drop_append] at begins
  have inner : c ∈ path := by
    cases rest : path.drop spot.keyword with
    | nil =>
      rw [rest, List.nil_append] at begins
      exact absurd (List.mem_of_mem_drop (begins.subset List.mem_cons_self)) apart
    | cons d others =>
      rw [rest, List.cons_append, List.cons_prefix_cons] at begins
      apply List.mem_of_mem_drop
      rw [rest, begins.1]
      exact List.mem_cons_self
  by_cases early : spot.start ≤ path.length
  · -- The path would have to reach over the quote.
    rw [Nat.sub_eq_zero_of_le early, List.drop_zero] at placed
    have short := (Text.prefix_of_separator unquoted placed).length_le
    have long := List.length_pos_of_mem inner
    rw [List.length_drop] at short
    rw [List.length_cons] at behind
    omega
  · rw [List.drop_eq_nil_of_le (by omega), List.nil_append] at placed
    exact apart (List.mem_of_mem_drop (placed.subset inner))

/-! ## References with blanks -/

/-- How a path is quoted inside `url(...)`. -/
inductive Quoting where
  | bare
  | single
  | double
  deriving DecidableEq

namespace Quoting

/-- The quote on either side of the path. -/
def mark : Quoting → Text
  | bare => []
  | single => "'"
  | double => "\""

theorem mark_of_ne_bare {quoting : Quoting} (quoted : quoting ≠ bare) :
    ∃ quote, isQuote quote = true ∧ quoting.mark = [quote] := by
  cases quoting with
  | bare => exact absurd rfl quoted
  | single => exact ⟨_, by decide, rfl⟩
  | double => exact ⟨_, by decide, rfl⟩

end Quoting

/-- What stands behind `url(`: a path, quoted or not, with text around it, and the parenthesis that closes. -/
def enclosed (quoting : Quoting) (before path after : Text) : Text :=
  before ++ quoting.mark ++ path ++ quoting.mark ++ after ++ Text.ofString ")"

/-- A stylesheet that imports a path by `url(...)`. -/
def importSheet (quoting : Quoting) (before path after : Text) : Text :=
  Text.ofString "@import url(" ++ enclosed quoting before path after ++ Text.ofString ";"

/-- A stylesheet with a property that refers to a path by `url(...)`. -/
def propertySheet (quoting : Quoting) (before path after : Text) : Text :=
  Text.ofString "a \x7b b: url(" ++ enclosed quoting before path after ++ Text.ofString "; \x7d"

variable {quoting : Quoting}

/-- In a property, the reference is the path with the blanks behind it, unless a quote closes it before them. -/
theorem IsPlain.takeReference_enclosed (plain : IsPlain path) (leads : ∀ c ∈ before, c.isBlank = true)
    (trails : ∀ c ∈ after, c.isBlank = true) (rest : Text) : ∃ raw, projectPath raw = some path ∧
      takeReference (Text.ofString "url(" ++ (enclosed quoting before path after ++ rest)) =
        some ⟨raw, rest⟩ := by
  by_cases bare : quoting = .bare
  · have unpadded : ∀ c ∈ ([] : Text), c.isBlank = true := by simp
    have read : IsRaw (path ++ after) := plain.isRaw_between unpadded trails
    have named : projectPath (path ++ after) = some path := plain.projectPath_between unpadded trails
    have solid : ∀ c ∈ (path ++ after ++ Codepoint.char ')' :: rest).head?, c.isBlank = false := by
      rw [List.append_assoc, List.head?_append_of_ne_nil path plain.nonempty]
      exact plain.solid_head
    have taken := takeReference_of_url before leads solid (read.takeUrl_bare rest)
    refine ⟨path ++ after, named, ?_⟩
    simpa [enclosed, bare, Quoting.mark, Text.ofString] using taken
  · obtain ⟨quote, quoted, mark⟩ := Quoting.mark_of_ne_bare bare
    have taken := plain.isRaw.takeReference_urlQuoted quote quoted before after leads trails rest
    refine ⟨path, plain.projectPath_eq, ?_⟩
    simpa [enclosed, mark, Text.ofString] using taken

theorem IsPlain.paths_propertySheet (plain : IsPlain path) (leads : ∀ c ∈ before, c.isBlank = true)
    (trails : ∀ c ∈ after, c.isBlank = true) : paths (propertySheet quoting before path after) = [path] := by
  obtain ⟨raw, named, taken⟩ := plain.takeReference_enclosed leads trails (Text.ofString "; \x7d")
  have declares : Idle "a \x7b b: " := by decide
  have closes : Idle "; \x7d" := by decide
  have split : propertySheet quoting before path after = Text.ofString "a \x7b b: " ++
      (Text.ofString "url(" ++ (enclosed quoting before path after ++ Text.ofString "; \x7d")) := by
    simp [propertySheet, Text.ofString]
  rw [split, paths_idle declares, paths_of_some taken, named, paths_eq_nil closes]
  rfl

/-- Behind `@import`, blanks around a bare path are a part of the reference. -/
theorem IsPlain.paths_importSheet_bare (plain : IsPlain path) (leads : ∀ c ∈ before, c.isBlank = true)
    (trails : ∀ c ∈ after, c.isBlank = true) : paths (importSheet .bare before path after) = [path] := by
  have taken := (plain.isRaw_between leads trails).takeReference_imported (Text.ofString ";")
  have closes : Idle ";" := by decide
  have split : importSheet .bare before path after = Text.ofString "@import url(" ++
      (before ++ path ++ after ++ Codepoint.char ')' :: Text.ofString ";") := by
    simp [importSheet, enclosed, Quoting.mark, Text.ofString]
  rw [split, paths_of_some taken, plain.projectPath_between leads trails, paths_eq_nil closes]
  rfl

/-- A quote that directly follows `url(` is passed over, and blanks behind the second one stay unread. -/
theorem IsPlain.paths_importSheet_quoted (plain : IsPlain path) (quoted : quoting ≠ .bare)
    (trails : ∀ c ∈ after, c.isBlank = true) : paths (importSheet quoting [] path after) = [path] := by
  obtain ⟨quote, isMark, mark⟩ := Quoting.mark_of_ne_bare quoted
  have split : importSheet quoting [] path after = Text.ofString "@import url(" ++
      quote :: (path ++ quote :: (after ++ Text.ofString ");")) := by
    simp [importSheet, enclosed, mark, Text.ofString]
  have taken := takeReference_of_importedUrl (plain.isRaw.takeQuoted_quoted isMark
    (isInside_of_isQuote isMark) (after ++ Text.ofString ");"))
  have absent := absent_closing isMark trails
  have left : Idle (passClosing (quote :: (after ++ Text.ofString ");"))) := by
    rw [passClosing_quote isMark]
    apply idle_of_absent
    intro keyword listed c held member
    apply absent keyword listed c held
    apply List.mem_cons_of_mem
    split at member
    · exact List.mem_of_mem_drop member
    · exact member
  rw [split, paths_of_some taken, plain.projectPath_eq, paths_eq_nil left]
  rfl

/-- Blanks before a quote are read in place of what is quoted. -/
theorem IsPlain.not_mem_paths_importSheet (plain : IsPlain path) (quoted : quoting ≠ .bare)
    (padded : before ≠ []) (leads : ∀ c ∈ before, c.isBlank = true)
    (trails : ∀ c ∈ after, c.isBlank = true) : path ∉ paths (importSheet quoting before path after) := by
  obtain ⟨quote, isMark, mark⟩ := Quoting.mark_of_ne_bare quoted
  have split : importSheet quoting before path after = Text.ofString "@import url(" ++
      (before ++ quote :: (path ++ quote :: (after ++ Text.ofString ");"))) := by
    simp [importSheet, enclosed, mark, Text.ofString]
  have read := isRaw_of_isBlank padded leads
  have taken := takeReference_of_importedUrl (read.takeQuoted_bare (isInside_of_isQuote isMark)
    (path ++ quote :: (after ++ Text.ofString ");")))
  have unclosed : (path ++ quote :: (after ++ Text.ofString ");")).head? ≠ some (Codepoint.char ')') := by
    rw [List.head?_append_of_ne_nil path plain.nonempty]
    intro first
    exact plain.free _ (by decide) (List.mem_of_head? first)
  have unquoted : quote ∉ path :=
    plain.free quote (mem_reserved.mpr (.inl (isInside_of_isQuote isMark)))
  rw [split, paths_of_some taken, projectPath_of_isBlank read leads, passClosing_quote isMark,
    if_neg unclosed]
  exact not_mem_paths_self unquoted (absent_closing isMark trails)

/-- A plain path in `url(...)` is read in a property whatever blanks and quotes stand around it.  Behind
`@import` it is read exactly if no blanks stand before a quote, and otherwise it is not among the paths. -/
theorem import_reads_enclosed_iff (plain : IsPlain path) (leads : ∀ c ∈ before, c.isBlank = true)
    (trails : ∀ c ∈ after, c.isBlank = true) (quoting : Quoting) :
    paths (propertySheet quoting before path after) = [path] ∧
      (paths (importSheet quoting before path after) = [path] ↔ before = [] ∨ quoting = .bare) ∧
      (path ∈ paths (importSheet quoting before path after) ↔ before = [] ∨ quoting = .bare) := by
  refine ⟨plain.paths_propertySheet leads trails, ?_⟩
  by_cases bare : quoting = .bare
  · subst bare
    simp [plain.paths_importSheet_bare leads trails]
  · by_cases padded : before = []
    · subst padded
      simp [plain.paths_importSheet_quoted bare trails]
    · have lost := plain.not_mem_paths_importSheet bare padded leads trails
      have differs : paths (importSheet quoting before path after) ≠ [path] := by
        intro same
        simp [same] at lost
      simp [lost, differs, padded, bare]

/-- A path with a keyword and a blank of its own, quoted behind no blanks and before some. -/
theorem import_reads_enclosed_tab :
    IsPlain "img/url(a b.css" ∧
      paths (importSheet .double [] "img/url(a b.css" "\t ") = ["img/url(a b.css"].map Text.ofString := by
  have plain : IsPlain "img/url(a b.css" := by decide
  exact ⟨plain, (import_reads_enclosed_iff plain (by simp) (by decide) .double).2.1.mpr (.inl rfl)⟩

/-- One blank before the quote, and the property and the import are read apart. -/
theorem import_loses_enclosed :
    IsPlain "a.css" ∧ (∀ c ∈ Text.ofString " ", c.isBlank = true) ∧
      paths (propertySheet .double " " "a.css" []) = ["a.css"].map Text.ofString ∧
      paths (importSheet .double " " "a.css" []) = [] := by
  decide

end Stylesheet

end Deadwood
