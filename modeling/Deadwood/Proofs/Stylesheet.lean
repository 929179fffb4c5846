import Deadwood.Proofs.StyleReference

/-!
# The paths of a stylesheet

Reading passes over one code point at a time until a reference can be read, and
goes on behind it.  So the paths of a stylesheet stand in its text one after the
other, each behind a keyword of its own, and what is not plain is left out.  A
sheet of plain paths, each written in one of the usual forms on a line of its
own, is read back as the list of these paths.
-/

namespace Deadwood

namespace Stylesheet

variable {text rest : Text} {found : Found}

/-! ## Reading one reference after the other -/

theorem rawReferences_skip (skip : Nat) (text : Text) :
    rawReferences skip text = rawReferences 0 (text.drop skip) := by
  induction skip generalizing text with
  | zero => rw [List.drop_zero]
  | succ skip ih =>
    cases text with
    | nil => simp [rawReferences]
    | cons c rest => rw [rawReferences, ih, List.drop_succ_cons]

theorem rawReferences_of_none {c : Codepoint} (missed : takeReference (c :: rest) = none) :
    rawReferences 0 (c :: rest) = rawReferences 0 rest := by
  rw [rawReferences, missed]

/-- Where a reference is read, reading goes on behind it. -/
theorem rawReferences_of_some (taken : takeReference text = some found) :
    rawReferences 0 text = found.raw :: rawReferences 0 found.rest := by
  obtain ⟨keyword, listed, inner, split, read⟩ := isRead_takeReference taken
  obtain ⟨before, after, placed⟩ := read.placed
  have begins : keyword ≠ [] := by
    rintro rfl
    exact absurd listed (by decide)
  obtain ⟨c, more, rfl⟩ := List.exists_cons_of_ne_nil begins
  have later : found.rest <:+ more ++ inner := ⟨more ++ before ++ found.raw ++ after, by simp [placed]⟩
  rw [split, List.cons_append] at taken ⊢
  rw [rawReferences, taken]
  simp only
  rw [rawReferences_skip, ← List.suffix_iff_eq_drop.mp later]

/-- What holds at the end of a text, goes on to hold when a code point is passed over, and holds of a text
if it holds behind the reference that is read from it, holds of every text. -/
theorem reading_induction {motive : Text → Prop} (nil : motive [])
    (pass : ∀ c rest, takeReference (c :: rest) = none → motive rest → motive (c :: rest))
    (take : ∀ text found, takeReference text = some found → motive found.rest → motive text)
    (text : Text) : motive text := by
  -- Reading goes on behind a whole reference, so the induction is on the length and not on the text.
  induction length : text.length using Nat.strong_induction_on generalizing text with
  | _ n ih =>
    cases taken : takeReference text with
    | some found =>
      refine take text found taken (ih _ ?_ found.rest rfl)
      obtain ⟨keyword, listed, inner, split, read⟩ := isRead_takeReference taken
      obtain ⟨before, after, placed⟩ := read.placed
      have nonempty := List.length_pos_iff.mpr read.nonempty
      rw [← length, split, placed]
      simp only [List.length_append]
      omega
    | none =>
      cases text with
      | nil => exact nil
      | cons c rest => exact pass c rest taken (ih _ (by simp [← length]) rest rfl)

/-! ## Paths in a text -/

/-- A path that stands in a text behind a keyword: where the keyword begins, where the path begins, and
the path itself. -/
structure Spot where
  keyword : Nat
  start : Nat
  path : Text

namespace Spot

/-- What a spot says is so in a text. -/
structure Marks (spot : Spot) (text : Text) : Prop where
  keyed : ∃ keyword ∈ keywords, keyword <+: text.drop spot.keyword ∧
    spot.keyword + keyword.length ≤ spot.start
  placed : spot.path <+: text.drop spot.start

/-- A path ends before the keyword of another begins. -/
def Before (first second : Spot) : Prop := first.start + first.path.length ≤ second.keyword

/-- A spot in a text that begins some code points later. -/
def shift (count : Nat) (spot : Spot) : Spot :=
  { spot with keyword := count + spot.keyword, start := count + spot.start }

theorem Marks.shift {spot : Spot} (marks : spot.Marks text) (before : Text) :
    (spot.shift before.length).Marks (before ++ text) := by
  obtain ⟨keyword, listed, begins, behind⟩ := marks.keyed
  constructor
  · refine ⟨keyword, listed, ?_, ?_⟩
    · simpa [Spot.shift] using begins
    · simp only [Spot.shift]
      omega
  · simpa [Spot.shift] using marks.placed

theorem Before.shift {first second : Spot} (apart : first.Before second) (count : Nat) :
    (first.shift count).Before (second.shift count) := by
  simp only [Before, Spot.shift] at apart ⊢
  omega

end Spot

/-- Paths occur in a text one after the other, each behind a keyword that stands behind the path before. -/
def Occur (text : Text) (paths : List Text) : Prop :=
  ∃ spots : List Spot, spots.map Spot.path = paths ∧ (∀ spot ∈ spots, spot.Marks text) ∧
    spots.Pairwise Spot.Before

namespace Occur

variable {paths : List Text}

theorem nil (text : Text) : Occur text [] := ⟨[], rfl, by simp, .nil⟩

theorem append (occur : Occur text paths) (before : Text) : Occur (before ++ text) paths := by
  obtain ⟨spots, listed, marks, ordered⟩ := occur
  refine ⟨spots.map (Spot.shift before.length), ?_, ?_, ?_⟩
  · rw [List.map_map]
    exact listed
  · rw [List.forall_mem_map]
    exact fun spot member => (marks spot member).shift before
  · rw [List.pairwise_map]
    exact ordered.imp fun apart => apart.shift before.length

/-- A path behind a keyword comes before the paths behind it. -/
theorem cons {keyword : Text} (listed : keyword ∈ keywords) (between path : Text)
    (occur : Occur rest paths) : Occur (keyword ++ between ++ path ++ rest) (path :: paths) := by
  obtain ⟨spots, equal, marks, ordered⟩ := occur
  let first : Spot := ⟨0, (keyword ++ between).length, path⟩
  let count := (keyword ++ between ++ path).length
  have marked : first.Marks (keyword ++ between ++ path ++ rest) := by
    constructor
    · exact ⟨keyword, listed, by simp [first], by simp [first]⟩
    · rw [List.append_assoc, List.drop_left]
      exact List.prefix_append path rest
  have apart : ∀ spot : Spot, first.Before (spot.shift count) := by
    intro spot
    simp only [Spot.Before, Spot.shift, first, count, List.length_append]
    omega
  refine ⟨first :: spots.map (Spot.shift count), ?_, ?_, ?_⟩
  · rw [List.map_cons, List.map_map]
    exact congrArg (path :: ·) equal
  · rw [List.forall_mem_cons, List.forall_mem_map]
    exact ⟨marked, fun spot member => (marks spot member).shift _⟩
  · rw [List.pairwise_cons, List.forall_mem_map, List.pairwise_map]
    exact ⟨fun spot _ => apart spot, ordered.imp fun later => later.shift count⟩

end Occur

/-! ## Plain paths -/

/-- A path begins with a scheme: a letter, then letters, digits, `+`, `.` and `-`, and a colon. -/
def HasScheme (path : Text) : Prop :=
  ∃ first more rest, path = first :: more ++ Codepoint.char ':' :: rest ∧ isSchemeLetter first = true ∧
    ∀ c ∈ more, isSchemePart c = true

/-- What no path of a reference holds: quotes, a closing parenthesis, and signs of computed paths, of
queries and of fragments. -/
def reserved : Text := "'\")\x7b$#?"

/-- A path that is referred to as it is written. -/
structure IsPlain (path : Text) : Prop where
  nonempty : path ≠ []
  trimmed : Text.trim path = path
  free : ∀ c ∈ reserved, c ∉ path
  unrooted : path.head? ≠ some Path.slash
  unschemed : ¬ HasScheme path

theorem isExternal_iff {path : Text} :
    isExternal path = true ↔ Text.ofString "//" <+: path ∨ HasScheme path := by
  rw [isExternal.eq_def, Bool.or_eq_true, Text.startsWith_iff]
  refine or_congr_right ?_
  cases path with
  | nil => simp [HasScheme]
  | cons first tail =>
    simp only [Bool.and_eq_true, beq_iff_eq]
    constructor
    · rintro ⟨letter, colon⟩
      obtain ⟨rest, split⟩ := List.head?_eq_some_iff.mp colon
      refine ⟨first, tail.takeWhile isSchemePart, rest, ?_, letter, ?_⟩
      · rw [List.cons_append, ← split, List.takeWhile_append_dropWhile]
      · exact fun c member => List.mem_takeWhile_imp member
    · rintro ⟨other, more, rest, split, letter, parts⟩
      rw [List.cons_append, List.cons.injEq] at split
      obtain ⟨rfl, rfl⟩ := split
      have stops : isSchemePart (Codepoint.char ':') = false := by decide
      refine ⟨letter, ?_⟩
      rw [List.dropWhile_append_of_pos parts]
      simp [stops]

/-- Behind no slash, a path is taken for an address outside the project exactly if it has a scheme. -/
theorem isExternal_eq_false_iff {path : Text} (unrooted : path.head? ≠ some Path.slash) :
    isExternal path = false ↔ ¬ HasScheme path := by
  rw [Bool.eq_false_iff, ne_eq, isExternal_iff, or_iff_right]
  rintro ⟨rest, rfl⟩
  exact unrooted rfl

theorem isPlain_iff {path : Text} : IsPlain path ↔ path ≠ [] ∧ Text.trim path = path ∧
    (∀ c ∈ reserved, c ∉ path) ∧ path.head? ≠ some Path.slash ∧ isExternal path = false := by
  constructor
  · intro plain
    exact ⟨plain.nonempty, plain.trimmed, plain.free, plain.unrooted,
      (isExternal_eq_false_iff plain.unrooted).mpr plain.unschemed⟩
  · rintro ⟨nonempty, trimmed, free, unrooted, inner⟩
    exact ⟨nonempty, trimmed, free, unrooted, (isExternal_eq_false_iff unrooted).mp inner⟩

instance (path : Text) : Decidable (IsPlain path) := decidable_of_iff _ isPlain_iff.symm

theorem isComputed_eq_false {raw : Text} : isComputed raw = false ↔
    Codepoint.char '\x7b' ∉ raw ∧ Codepoint.char '$' ∉ raw ∧ Codepoint.char '#' ∉ raw := by
  simp only [isComputed, List.any_eq_false, Bool.or_eq_true, decide_eq_true_eq]
  grind

theorem mem_reserved {c : Codepoint} : c ∈ reserved ↔ isInside c = false ∨ c = Codepoint.char '\x7b' ∨
    c = Codepoint.char '$' ∨ c = Codepoint.char '#' ∨ c = Codepoint.char '?' := by
  have listed : reserved = [Codepoint.char '\x27', Codepoint.char '\x22', Codepoint.char ')',
    Codepoint.char '\x7b', Codepoint.char '$', Codepoint.char '#', Codepoint.char '?'] := rfl
  simp only [listed, List.mem_cons, List.not_mem_nil, or_false, isInside, isQuote]
  grind

theorem pathOf_isInfix (raw : Text) : pathOf raw <:+: raw :=
  (Text.trim_isInfix _).trans (List.takeWhile_prefix _).isInfix

theorem mem_pathOf {raw : Text} {c : Codepoint} (member : c ∈ pathOf raw) :
    c ∈ raw ∧ c ≠ Codepoint.char '?' ∧ c ≠ Codepoint.char '#' := by
  refine ⟨(pathOf_isInfix raw).subset member, ?_⟩
  have kept := List.mem_takeWhile_imp (Text.mem_of_mem_trim member)
  simpa using kept

/-- The path that a reference names is plain, and it stands in the reference. -/
theorem isPlain_of_projectPath {raw path : Text} (read : IsRaw raw)
    (named : projectPath raw = some path) : IsPlain path ∧ path <:+: raw := by
  simp only [projectPath] at named
  split at named
  case isTrue => cases named
  case isFalse written =>
    split at named
    case isTrue => cases named
    case isFalse kept =>
      cases named
      rw [Bool.not_eq_true, isComputed_eq_false] at written
      simp only [Bool.or_eq_true, decide_eq_true_eq, not_or, isExternal_iff] at kept
      obtain ⟨⟨nonempty, -, unschemed⟩, unrooted⟩ := kept
      refine ⟨⟨nonempty, ?_, ?_, ?_, unschemed⟩, pathOf_isInfix raw⟩
      · exact Text.trim_eq_self (fun c => Text.head?_trim) (fun c => Text.getLast?_trim)
      · intro c listed member
        obtain ⟨held, unasked, -⟩ := mem_pathOf member
        have allowed := read.inside c held
        rw [mem_reserved] at listed
        grind
      · intro rooted
        exact unrooted (Text.startsWith_singleton.mpr rooted)

namespace IsPlain

variable {path : Text}

theorem isRaw (plain : IsPlain path) : IsRaw path := by
  refine ⟨plain.nonempty, fun c member => ?_⟩
  rw [← Bool.not_eq_false]
  intro outside
  exact plain.free c (mem_reserved.mpr (.inl outside)) member

theorem pathOf_eq (plain : IsPlain path) : pathOf path = path := by
  have whole : path.takeWhile (fun c => c != Codepoint.char '?' && c != Codepoint.char '#') = path := by
    rw [List.takeWhile_eq_self_iff]
    intro c member
    simp only [Bool.and_eq_true, bne_iff_ne]
    constructor
    · rintro rfl
      exact plain.free _ (by decide) member
    · rintro rfl
      exact plain.free _ (by decide) member
  rw [pathOf, whole, plain.trimmed]

theorem solid_head (plain : IsPlain path) : ∀ c ∈ path.head?, c.isBlank = false := by
  rw [← plain.trimmed]
  exact fun c => Text.head?_trim

/-- A plain path names itself. -/
theorem projectPath_eq (plain : IsPlain path) : projectPath path = some path := by
  have written : isComputed path = false :=
    isComputed_eq_false.mpr ⟨plain.free _ (by decide), plain.free _ (by decide), plain.free _ (by decide)⟩
  have unrooted : Text.startsWith path "/" = false := Text.startsWith_singleton_eq_false.mpr plain.unrooted
  have inner : isExternal path = false := (isExternal_eq_false_iff plain.unrooted).mpr plain.unschemed
  simp [projectPath, written, plain.pathOf_eq, plain.nonempty, inner, unrooted]

end IsPlain

/-! ## The paths of a stylesheet -/

theorem paths_nil : paths [] = [] := rfl

theorem paths_of_none {c : Codepoint} (missed : takeReference (c :: rest) = none) :
    paths (c :: rest) = paths rest := by
  rw [paths, rawReferences_of_none missed, paths]

theorem paths_of_some (taken : takeReference text = some found) :
    paths text = (projectPath found.raw).toList ++ paths found.rest := by
  rw [paths, rawReferences_of_some taken, List.filterMap_cons, paths]
  cases projectPath found.raw <;> rfl

theorem occur_paths (text : Text) : Occur text (paths text) := by
  induction text using reading_induction with
  | nil => exact .nil []
  | pass c rest missed ih =>
    rw [paths_of_none missed]
    exact ih.append [c]
  | take text found taken ih =>
    rw [paths_of_some taken]
    obtain ⟨keyword, listed, inner, rfl, read⟩ := isRead_takeReference taken
    obtain ⟨before, after, rfl⟩ := read.placed
    cases named : projectPath found.raw with
    | none =>
      -- Nothing is named here: the spots behind only move.
      have later := ih.append (keyword ++ before ++ found.raw ++ after)
      simpa using later
    | some path =>
      obtain ⟨-, skipped, left, within⟩ := isPlain_of_projectPath read.toIsRaw named
      have later := (ih.append (left ++ after)).cons listed (before ++ skipped) path
      rw [← within]
      simpa using later

theorem isPlain_of_mem_paths {path : Text} (member : path ∈ paths text) : IsPlain path := by
  induction text using reading_induction with
  | nil => simp [paths, rawReferences] at member
  | pass c rest missed ih =>
    rw [paths_of_none missed] at member
    exact ih member
  | take text found taken ih =>
    rw [paths_of_some taken, List.mem_append, Option.mem_toList] at member
    obtain ⟨keyword, listed, inner, split, read⟩ := isRead_takeReference taken
    rcases member with named | later
    · exact (isPlain_of_projectPath read.toIsRaw named).1
    · exact ih later

/-! ## Written stylesheets -/

/-- No keyword begins in a text, whatever follows it. -/
def Idle (text : Text) : Prop :=
  ∀ part ∈ text.tails, part ≠ [] → ∀ keyword ∈ keywords, ¬ part <+: keyword ∧ ¬ keyword <+: part

instance (text : Text) : Decidable (Idle text) := inferInstanceAs (Decidable (∀ part ∈ text.tails, _))

theorem takeReference_eq_none (absent : ∀ keyword ∈ keywords, ¬ keyword <+: text) :
    takeReference text = none := by
  cases taken : takeReference text with
  | none => rfl
  | some found =>
    obtain ⟨keyword, listed, inner, split, -⟩ := isRead_takeReference taken
    exact absurd ⟨inner, split.symm⟩ (absent keyword listed)

/-- Text in which no keyword begins is passed over. -/
theorem paths_idle {before : Text} (idle : Idle before) (text : Text) : paths (before ++ text) = paths text := by
  induction before with
  | nil => rfl
  | cons c more ih =>
    have absent : ∀ keyword ∈ keywords, ¬ keyword <+: c :: (more ++ text) := by
      intro keyword listed begins
      have apart := idle (c :: more) (by simp) (by simp) keyword listed
      rcases List.prefix_or_prefix_of_prefix begins (List.prefix_append (c :: more) text) with short | long
      · exact apart.2 short
      · exact apart.1 long
    have later : Idle more := fun part member => idle part (by simp [member])
    rw [List.cons_append, paths_of_none (takeReference_eq_none absent), ih later]

/-- The forms in which a stylesheet refers to a path. -/
inductive Form where
  /-- Written as `@import "p";`. -/
  | double
  /-- Written as `@import 'p';`. -/
  | single
  /-- Written as `@import url(p);`. -/
  | url
  /-- Written as `@import url("p");`. -/
  | urlDouble
  /-- Written as `@import url('p');`. -/
  | urlSingle
  /-- Written as `@import (reference) "p";`. -/
  | optioned
  /-- Written as `.x { background: url(p); }`. -/
  | property
  /-- Written as `.x { background: url("p"); }`. -/
  | propertyDouble
  /-- Written as `.x { background: url( 'p' ); }`. -/
  | propertySpaced

namespace Form

/-- What a form puts before the path. -/
def opening : Form → Text
  | double => "@import \""
  | single => "@import '"
  | url => "@import url("
  | urlDouble => "@import url(\""
  | urlSingle => "@import url('"
  | optioned => "@import (reference) \""
  | property => ".x \x7b background: url("
  | propertyDouble => ".x \x7b background: url(\""
  | propertySpaced => ".x \x7b background: url( '"

/-- What a form puts behind the path. -/
def closing : Form → Text
  | double | optioned => "\";"
  | single => "';"
  | url => ");"
  | urlDouble => "\");"
  | urlSingle => "');"
  | property => "); \x7d"
  | propertyDouble => "\"); \x7d"
  | propertySpaced => "' ); \x7d"

end Form

/-- A path and the form in which it is written. -/
structure WrittenPath where
  form : Form
  path : Text

/-- The line that refers to a path. -/
def WrittenPath.line (written : WrittenPath) : Text :=
  written.form.opening ++ written.path ++ written.form.closing

/-- In every form the path is read back, between text in which no keyword begins. -/
theorem IsPlain.read_line {written : WrittenPath} (plain : IsPlain written.path) (rest : Text) :
    ∃ lead inner trail, Idle lead ∧ Idle trail ∧ written.line ++ rest = lead ++ inner ∧
      takeReference inner = some ⟨written.path, trail ++ rest⟩ := by
  obtain ⟨form, path⟩ := written
  have read : IsRaw path := plain.isRaw
  have unclosed : (Text.ofString ";" ++ rest).head? ≠ some (Codepoint.char ')') := by rintro ⟨⟩
  have declares : Idle ".x \x7b background: " := by decide
  simp only [WrittenPath.line, List.append_assoc]
  cases form with
  | double =>
    have taken := read.takeReference_quoted '\x22' (by decide) unclosed
    exact ⟨[], _, ";", by decide, by decide, rfl, taken⟩
  | single =>
    have taken := read.takeReference_quoted '\x27' (by decide) unclosed
    exact ⟨[], _, ";", by decide, by decide, rfl, taken⟩
  | url =>
    have taken := read.takeReference_imported (Text.ofString ";" ++ rest)
    exact ⟨[], _, ";", by decide, by decide, rfl, taken⟩
  | urlDouble =>
    have taken := read.takeReference_importedQuoted '\x22' (by decide) (Text.ofString ";" ++ rest)
    exact ⟨[], _, ";", by decide, by decide, rfl, taken⟩
  | urlSingle =>
    have taken := read.takeReference_importedQuoted '\x27' (by decide) (Text.ofString ";" ++ rest)
    exact ⟨[], _, ";", by decide, by decide, rfl, taken⟩
  | optioned =>
    have taken := read.takeReference_optioned '\x22' (by decide) unclosed
    exact ⟨[], _, ";", by decide, by decide, rfl, taken⟩
  | property =>
    have taken := read.takeReference_url plain.solid_head (Text.ofString "; \x7d" ++ rest)
    refine ⟨_, _, "; \x7d", declares, by decide, ?_, taken⟩
    simp [Form.opening, Form.closing, Text.ofString]
  | propertyDouble =>
    have taken := read.takeReference_urlQuoted '\x22' (by decide) [] [] (by simp) (by simp)
      (Text.ofString "; \x7d" ++ rest)
    refine ⟨_, _, "; \x7d", declares, by decide, ?_, taken⟩
    simp [Form.opening, Form.closing, Text.ofString]
  | propertySpaced =>
    have taken := read.takeReference_urlQuoted '\x27' (by decide) " " " " (by decide) (by decide)
      (Text.ofString "; \x7d" ++ rest)
    refine ⟨_, _, "; \x7d", declares, by decide, ?_, taken⟩
    simp [Form.opening, Form.closing, Text.ofString]

/-- A written path at the front of a stylesheet is read, and reading goes on behind its line. -/
theorem IsPlain.paths_line {written : WrittenPath} (plain : IsPlain written.path) (rest : Text) :
    paths (written.line ++ rest) = written.path :: paths rest := by
  obtain ⟨lead, inner, trail, leads, trails, split, taken⟩ := plain.read_line rest
  rw [split, paths_idle leads, paths_of_some taken, plain.projectPath_eq, paths_idle trails]
  rfl

/-- The paths of a stylesheet occur in its text one after the other, each behind a keyword of its own that
stands behind the path before.  The paths that some stylesheet refers to are exactly the plain ones. -/
theorem paths_occur_plain : (∀ text, Occur text (paths text)) ∧
    ∀ path, (∃ text, path ∈ paths text) ↔ IsPlain path := by
  refine ⟨occur_paths, fun path => ⟨?_, fun plain => ?_⟩⟩
  · rintro ⟨text, member⟩
    exact isPlain_of_mem_paths member
  · have read : paths (WrittenPath.line ⟨.url, path⟩ ++ []) = path :: paths [] := IsPlain.paths_line plain []
    exact ⟨_, read ▸ List.mem_cons_self⟩

/-- Plain paths, each written on a line of its own, are read back in order and with repetitions, whether or
not the last line is ended. -/
theorem paths_sheet (written : List WrittenPath) (plain : ∀ one ∈ written, IsPlain one.path) :
    paths (Text.joinWith "\n" (written.map WrittenPath.line)) = written.map WrittenPath.path ∧
      paths (written.flatMap fun one => one.line ++ Text.ofString "\n") = written.map WrittenPath.path := by
  have ended : Idle "\n" := by decide
  induction written with
  | nil => exact ⟨rfl, rfl⟩
  | cons one more ih =>
    obtain ⟨first, others⟩ := List.forall_mem_cons.mp plain
    obtain ⟨joined, listed⟩ := ih others
    constructor
    -- Joined lines end without a separator, so the last one is a case of its own.
    · cases more with
      | nil =>
        have read := first.paths_line []
        simpa [Text.joinWith, paths_nil] using read
      | cons next later =>
        rw [List.map_cons, Text.joinWith, List.intercalate_cons_of_ne_nil (by simp), List.append_assoc,
          first.paths_line, paths_idle ended, ← Text.joinWith, joined]
        rfl
    · rw [List.flatMap_cons, List.append_assoc, first.paths_line, paths_idle ended, listed, List.map_cons]

/-- A path that holds both keywords, between two references to another one. -/
theorem paths_sheet_keywords :
    let written : List WrittenPath :=
      [⟨.single, "a.css"⟩, ⟨.propertySpaced, "img/@import url(b.png"⟩, ⟨.url, "a.css"⟩]
    (∀ one ∈ written, IsPlain one.path) ∧ paths (Text.joinWith "\n" (written.map WrittenPath.line)) =
      ["a.css", "img/@import url(b.png", "a.css"].map Text.ofString := by
  intro written
  have plain : ∀ one ∈ written, IsPlain one.path := by decide
  exact ⟨plain, (paths_sheet written plain).1⟩

end Stylesheet

end Deadwood
