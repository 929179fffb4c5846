import Deadwood.Proofs.Text
import Deadwood.Stylesheet

/-!
# References in a stylesheet

A reference is read behind one of two keywords, and whatever quotes, blanks,
options and parentheses are passed over on the way, it is a stretch of the text
itself, and reading goes on behind it.  Conversely, what is written in one of
the usual forms is read back as it was written.
-/

namespace Deadwood

namespace Stylesheet

variable {text rest : Text} {found : Found}

/-! ## Reading one reference -/

/-- What can be read as a reference: it is not empty and holds neither quotes nor a closing parenthesis. -/
structure IsRaw (raw : Text) : Prop where
  nonempty : raw ≠ []
  inside : ∀ c ∈ raw, isInside c = true

/-- A reference is read from a text: it stands in the text, and what is left stands behind it. -/
structure IsRead (text : Text) (found : Found) : Prop extends IsRaw found.raw where
  placed : ∃ before after, text = before ++ found.raw ++ after ++ found.rest

namespace IsRead

/-- Text that is passed over before a reference does not matter. -/
theorem of_suffix {inner : Text} (read : IsRead inner found) (later : inner <:+ text) : IsRead text found := by
  obtain ⟨skipped, rfl⟩ := later
  obtain ⟨before, after, placed⟩ := read.placed
  exact ⟨read.toIsRaw, skipped ++ before, after, by simp [placed]⟩

/-- Nor does text that is passed over behind it. -/
theorem drop (read : IsRead text found) (later : rest <:+ found.rest) : IsRead text { found with rest } := by
  obtain ⟨skipped, split⟩ := later
  obtain ⟨before, after, placed⟩ := read.placed
  exact ⟨read.toIsRaw, before, after ++ skipped, by simp [placed, ← split]⟩

end IsRead

theorem skipQuote_suffix (text : Text) : skipQuote text <:+ text := by
  cases text with
  | nil => exact List.suffix_rfl
  | cons c rest =>
    simp only [skipQuote]
    split
    case isTrue => exact List.suffix_cons c rest
    case isFalse => exact List.suffix_rfl

theorem takeInside_eq_some : takeInside text = some found ↔ found.raw ≠ [] ∧
    found.raw = text.takeWhile isInside ∧ found.rest = text.dropWhile isInside := by
  obtain ⟨raw, rest⟩ := found
  simp only [takeInside]
  split
  case h_1 empty =>
    rw [empty]
    grind
  case h_2 nonempty =>
    rw [Text.drop_takeWhile]
    grind

theorem isRead_takeInside (taken : takeInside text = some found) : IsRead text found := by
  obtain ⟨nonempty, raw, rest⟩ := takeInside_eq_some.mp taken
  refine ⟨⟨nonempty, ?_⟩, [], [], ?_⟩
  · intro c member
    rw [raw] at member
    exact List.mem_takeWhile_imp member
  · simp [raw, rest]

theorem eq_some_of_orElse {α : Type} {first second : Option α} {result : α}
    (taken : (first <|> second) = some result) : first = some result ∨ second = some result := by
  cases first with
  | none => exact .inr taken
  | some other => exact .inl taken

theorem isRead_takeQuoted (taken : takeQuoted text = some found) : IsRead text found := by
  rcases eq_some_of_orElse taken with quoted | bare
  · exact (isRead_takeInside quoted).of_suffix (skipQuote_suffix text)
  · exact isRead_takeInside bare

theorem isRead_takeImported (taken : takeImported text = some found) : IsRead text found := by
  simp only [takeImported, Option.map_eq_some_iff] at taken
  obtain ⟨inner, taken, rfl⟩ := taken
  have read : IsRead text inner := by
    rcases eq_some_of_orElse taken with opened | bare
    · split at opened
      case isTrue => exact (isRead_takeQuoted opened).of_suffix (List.drop_suffix 4 text)
      case isFalse => cases opened
    · exact isRead_takeQuoted bare
  apply read.drop
  split
  case isTrue => exact (List.drop_suffix 1 _).trans (skipQuote_suffix inner.rest)
  case isFalse => exact skipQuote_suffix inner.rest

/-- Blanks at the front do not matter to what is read behind them. -/
theorem isRead_takeBehindBlanks {take : Text → Option Found} {least : Nat}
    (reads : ∀ inner, take inner = some found → IsRead inner found)
    (taken : takeBehindBlanks take least text = some found) : IsRead text found := by
  simp only [takeBehindBlanks] at taken
  split at taken
  case isTrue => cases taken
  case isFalse =>
    rcases eq_some_of_orElse taken with behind | last
    · exact (reads _ behind).of_suffix (List.drop_suffix _ text)
    · split at last
      case isTrue => exact (reads _ last).of_suffix (List.drop_suffix _ text)
      case isFalse => cases last

theorem suffix_of_dropWhile {p : Codepoint → Bool} {c : Codepoint} (dropped : text.dropWhile p = c :: rest) :
    rest <:+ text :=
  (List.suffix_cons c rest).trans (dropped ▸ List.dropWhile_suffix p)

theorem isRead_takeOptioned (taken : takeOptioned text = some found) : IsRead text found := by
  rcases eq_some_of_orElse taken with behind | bare
  · split at behind
    case isFalse => cases behind
    case isTrue =>
      split at behind
      case h_2 => cases behind
      case h_1 split =>
        have read := isRead_takeBehindBlanks (fun _ => isRead_takeImported) behind
        exact read.of_suffix (suffix_of_dropWhile split)
  · exact isRead_takeImported bare

theorem closeParenthesis_suffix (closed : closeParenthesis text = some rest) : rest <:+ text := by
  simp only [closeParenthesis] at closed
  rcases eq_some_of_orElse closed with quoted | bare
  · split at quoted
    case h_2 => cases quoted
    case h_1 trimmed =>
      obtain ⟨-, ⟨⟩⟩ := Option.ite_none_right_eq_some.mp quoted
      exact (suffix_of_dropWhile trimmed).trans (skipQuote_suffix text)
  · split at bare
    case h_2 => cases bare
    case h_1 trimmed =>
      obtain ⟨-, ⟨⟩⟩ := Option.ite_none_right_eq_some.mp bare
      exact suffix_of_dropWhile trimmed

theorem isRead_takeUrl (taken : takeUrl text = some found) : IsRead text found := by
  simp only [takeUrl, bind, Option.bind_eq_some_iff, pure, Option.some.injEq] at taken
  obtain ⟨inner, quoted, rest, closed, rfl⟩ := taken
  exact (isRead_takeQuoted quoted).drop (closeParenthesis_suffix closed)

/-- The texts behind which references are read. -/
def keywords : List Text := ["@import", "url("].map Text.ofString

/-- A reference is read behind a keyword. -/
theorem isRead_takeReference (taken : takeReference text = some found) :
    ∃ keyword ∈ keywords, ∃ inner, text = keyword ++ inner ∧ IsRead inner found := by
  rcases eq_some_of_orElse taken with imported | url
  · split at imported
    case isFalse => cases imported
    case isTrue begins =>
      obtain ⟨inner, rfl⟩ := Text.startsWith_iff.mp begins
      have read := isRead_takeBehindBlanks (fun _ => isRead_takeOptioned) imported
      exact ⟨"@import", by decide, inner, rfl, read⟩
  · split at url
    case isFalse => cases url
    case isTrue begins =>
      obtain ⟨inner, rfl⟩ := Text.startsWith_iff.mp begins
      have read := isRead_takeBehindBlanks (fun _ => isRead_takeUrl) url
      exact ⟨"url(", by decide, inner, rfl, read⟩

/-! ## Reading back what is written -/

theorem isInside_of_isQuote {c : Codepoint} (quote : isQuote c = true) : isInside c = false := by
  simp [isInside, quote]

/-- Blanks are passed over before what is read behind them. -/
theorem takeBehindBlanks_append {take : Text → Option Found} {least : Nat} {blanks : Text}
    (blank : ∀ c ∈ blanks, c.isBlank = true) (enough : least ≤ blanks.length)
    (solid : ∀ c ∈ text.head?, c.isBlank = false) (taken : take text = some found) :
    takeBehindBlanks take least (blanks ++ text) = some found := by
  have counted : (blanks ++ text).takeWhile Codepoint.isBlank = blanks := by
    rw [List.takeWhile_append_of_pos blank]
    cases text with
    | nil => simp
    | cons c rest => simp [solid c rfl]
  simp only [takeBehindBlanks, counted, List.drop_left, taken]
  rw [if_neg (Nat.not_lt.mpr enough)]
  rfl

theorem closeParenthesis_of_isQuote {quote : Codepoint} (quoted : isQuote quote = true) {blanks : Text}
    (blank : ∀ c ∈ blanks, c.isBlank = true) (rest : Text) :
    closeParenthesis (quote :: (blanks ++ Codepoint.char ')' :: rest)) = some rest := by
  have solid : Codepoint.isBlank (Codepoint.char ')') = false := by decide
  simp only [closeParenthesis, skipQuote, quoted, if_true, Text.trimStartBy,
    List.dropWhile_append_of_pos blank, List.dropWhile_cons, solid, Bool.false_eq_true, if_false]
  rfl

/-- What is left behind the argument of an `@import` when a quote and a closing parenthesis are passed. -/
def passClosing (rest : Text) : Text :=
  if Text.startsWith (skipQuote rest) ")" then (skipQuote rest).drop 1 else skipQuote rest

theorem passClosing_quote {quote : Codepoint} (quoted : isQuote quote = true) (rest : Text) :
    passClosing (quote :: rest) = if rest.head? = some (Codepoint.char ')') then rest.drop 1 else rest := by
  have closed : Text.startsWith rest ")" = true ↔ rest.head? = some (Codepoint.char ')') :=
    Text.startsWith_singleton
  simp only [passClosing, skipQuote, quoted, if_true, closed]

theorem takeImported_of_url (taken : takeQuoted text = some found) :
    takeImported (("url(" : Text) ++ text) = some { found with rest := passClosing found.rest } := by
  have begins : Text.startsWith (Text.ofString "url(" ++ text) "url(" = true := rfl
  have behind : (Text.ofString "url(" ++ text).drop 4 = text := rfl
  simp only [takeImported, begins, if_true, behind, taken]
  rfl

theorem takeImported_of_quoted {quote : Codepoint} (quoted : isQuote quote = true)
    (taken : takeQuoted (quote :: text) = some found) :
    takeImported (quote :: text) = some { found with rest := passClosing found.rest } := by
  have bare : Text.startsWith (quote :: text) "url(" = false := by
    rw [Text.startsWith_eq_false]
    rintro ⟨rest, equal⟩
    cases equal
    exact absurd quoted (by decide)
  simp only [takeImported, bare, Bool.false_eq_true, if_false, taken]
  rfl

theorem takeOptioned_of_bare (bare : text.head? ≠ some (Codepoint.char '(')) :
    takeOptioned text = takeImported text := by
  have plain : Text.startsWith text "(" = false := Text.startsWith_singleton_eq_false.mpr bare
  simp only [takeOptioned, plain, Bool.false_eq_true, if_false]
  rfl

/-- Options in parentheses are passed over, with the blanks behind them. -/
theorem takeOptioned_of_options (options blanks : Text) (unclosed : Codepoint.char ')' ∉ options)
    (blank : ∀ c ∈ blanks, c.isBlank = true) (solid : ∀ c ∈ text.head?, c.isBlank = false)
    (taken : takeImported text = some found) :
    takeOptioned (Codepoint.char '(' :: (options ++ Codepoint.char ')' :: (blanks ++ text))) = some found := by
  have opened : Text.startsWith
      (Codepoint.char '(' :: (options ++ Codepoint.char ')' :: (blanks ++ text))) "(" = true := rfl
  have passed : ∀ c ∈ Codepoint.char '(' :: options, (c != Codepoint.char ')') = true := by
    rw [List.forall_mem_cons]
    exact ⟨by decide, fun c member => bne_iff_ne.mpr (ne_of_mem_of_not_mem member unclosed)⟩
  have behind : (Codepoint.char '(' :: (options ++ Codepoint.char ')' :: (blanks ++ text))).dropWhile
      (· != Codepoint.char ')') = Codepoint.char ')' :: (blanks ++ text) := by
    rw [← List.cons_append, List.dropWhile_append_of_pos passed]
    rfl
  simp only [takeOptioned, opened, if_true, behind,
    takeBehindBlanks_append blank (Nat.zero_le _) solid taken]
  rfl

theorem takeReference_of_import (solid : ∀ c ∈ text.head?, c.isBlank = false)
    (taken : takeOptioned text = some found) : takeReference (("@import " : Text) ++ text) = some found := by
  have begins : Text.startsWith (Text.ofString "@import " ++ text) "@import" = true := rfl
  have behind : (Text.ofString "@import " ++ text).drop 7 = Text.ofString " " ++ text := rfl
  have blank : ∀ c ∈ Text.ofString " ", c.isBlank = true := by decide
  simp only [takeReference, begins, if_true, behind, takeBehindBlanks_append blank (Nat.le_refl 1) solid taken]
  rfl

/-- What is read behind `url(` is the argument of the `@import` before it. -/
theorem takeReference_of_importedUrl (taken : takeQuoted text = some found) :
    takeReference (("@import url(" : Text) ++ text) =
      some { found with rest := passClosing found.rest } := by
  have imported := takeImported_of_url taken
  refine takeReference_of_import ?_ ((takeOptioned_of_bare ?_).trans imported)
  · rintro c ⟨⟩
    decide
  · rintro ⟨⟩

theorem takeReference_of_url (blanks : Text) (blank : ∀ c ∈ blanks, c.isBlank = true)
    (solid : ∀ c ∈ text.head?, c.isBlank = false) (taken : takeUrl text = some found) :
    takeReference (("url(" : Text) ++ (blanks ++ text)) = some found := by
  have other : Text.startsWith (Text.ofString "url(" ++ (blanks ++ text)) "@import" = false := rfl
  have begins : Text.startsWith (Text.ofString "url(" ++ (blanks ++ text)) "url(" = true := rfl
  have behind : (Text.ofString "url(" ++ (blanks ++ text)).drop 4 = blanks ++ text := rfl
  simp only [takeReference, other, Bool.false_eq_true, if_false, begins, if_true, behind,
    takeBehindBlanks_append blank (Nat.zero_le _) solid taken]
  rfl

/-- A quote is neither a blank nor does it open options. -/
theorem head_of_isQuote {quote : Codepoint} (quoted : isQuote quote = true) (text : Text) :
    (∀ c ∈ (quote :: text).head?, c.isBlank = false) ∧
      (quote :: text).head? ≠ some (Codepoint.char '(') := by
  simp only [isQuote, Bool.or_eq_true, decide_eq_true_eq] at quoted
  simp only [List.head?_cons, Option.mem_def, Option.some.injEq, forall_eq']
  rcases quoted with rfl | rfl
  · decide
  · decide

namespace IsRaw

variable {raw : Text}

theorem takeInside_append (read : IsRaw raw) {stop : Codepoint} (stops : isInside stop = false) (rest : Text) :
    takeInside (raw ++ stop :: rest) = some ⟨raw, stop :: rest⟩ := by
  rw [takeInside_eq_some]
  refine ⟨read.nonempty, ?_, ?_⟩
  · rw [List.takeWhile_append_of_pos read.inside]
    simp [stops]
  · rw [List.dropWhile_append_of_pos read.inside]
    simp [stops]

theorem isQuote_head (read : IsRaw raw) (rest : Text) : ∀ c ∈ (raw ++ rest).head?, isQuote c = false := by
  obtain ⟨c, more, rfl⟩ := List.exists_cons_of_ne_nil read.nonempty
  have first := read.inside c List.mem_cons_self
  simp only [isInside, Bool.and_eq_true, Bool.not_eq_true'] at first
  rintro d ⟨⟩
  exact first.1

theorem skipQuote_append (read : IsRaw raw) (rest : Text) : skipQuote (raw ++ rest) = raw ++ rest := by
  have bare := read.isQuote_head rest
  cases whole : raw ++ rest with
  | nil => rfl
  | cons c more => simp [skipQuote, bare c (by simp [whole])]

/-- A reference is read up to the code point that closes it. -/
theorem takeQuoted_bare (read : IsRaw raw) {stop : Codepoint} (stops : isInside stop = false) (rest : Text) :
    takeQuoted (raw ++ stop :: rest) = some ⟨raw, stop :: rest⟩ := by
  rw [takeQuoted, read.skipQuote_append, read.takeInside_append stops]
  rfl

/-- The same behind a quote. -/
theorem takeQuoted_quoted (read : IsRaw raw) {quote : Codepoint} (quoted : isQuote quote = true)
    {stop : Codepoint} (stops : isInside stop = false) (rest : Text) :
    takeQuoted (quote :: (raw ++ stop :: rest)) = some ⟨raw, stop :: rest⟩ := by
  rw [takeQuoted, skipQuote, if_pos quoted, read.takeInside_append stops]
  rfl

theorem takeUrl_bare (read : IsRaw raw) (rest : Text) :
    takeUrl (raw ++ Codepoint.char ')' :: rest) = some ⟨raw, rest⟩ := by
  rw [takeUrl, read.takeQuoted_bare (by decide)]
  rfl

theorem takeUrl_quoted (read : IsRaw raw) {quote : Codepoint} (quoted : isQuote quote = true) {blanks : Text}
    (blank : ∀ c ∈ blanks, c.isBlank = true) (rest : Text) :
    takeUrl (quote :: (raw ++ quote :: (blanks ++ Codepoint.char ')' :: rest))) = some ⟨raw, rest⟩ := by
  rw [takeUrl, read.takeQuoted_quoted quoted (isInside_of_isQuote quoted)]
  simp only [bind, Option.bind_some, closeParenthesis_of_isQuote quoted blank]
  rfl

theorem takeImported_quoted (read : IsRaw raw) {quote : Codepoint} (quoted : isQuote quote = true)
    (unclosed : rest.head? ≠ some (Codepoint.char ')')) :
    takeImported (quote :: (raw ++ quote :: rest)) = some ⟨raw, rest⟩ := by
  have taken := read.takeQuoted_quoted quoted (isInside_of_isQuote quoted) rest
  rw [takeImported_of_quoted quoted taken, passClosing_quote quoted, if_neg unclosed]

/-! ### The forms in which a reference is written -/

theorem takeReference_quoted (read : IsRaw raw) (quote : Codepoint) (quoted : isQuote quote = true)
    (unclosed : rest.head? ≠ some (Codepoint.char ')')) :
    takeReference (("@import " : Text) ++ quote :: (raw ++ quote :: rest)) = some ⟨raw, rest⟩ := by
  obtain ⟨solid, bare⟩ := head_of_isQuote quoted (raw ++ quote :: rest)
  apply takeReference_of_import solid
  rw [takeOptioned_of_bare bare]
  exact read.takeImported_quoted quoted unclosed

theorem takeReference_optioned (read : IsRaw raw) (quote : Codepoint) (quoted : isQuote quote = true)
    (unclosed : rest.head? ≠ some (Codepoint.char ')')) :
    takeReference (("@import (reference) " : Text) ++ quote :: (raw ++ quote :: rest)) = some ⟨raw, rest⟩ := by
  obtain ⟨solid, -⟩ := head_of_isQuote quoted (raw ++ quote :: rest)
  have taken := takeOptioned_of_options "reference" " " (by decide) (by decide) solid
    (read.takeImported_quoted quoted unclosed)
  refine takeReference_of_import ?_ taken
  rintro c ⟨⟩
  decide

theorem takeReference_imported (read : IsRaw raw) (rest : Text) :
    takeReference (("@import url(" : Text) ++ (raw ++ Codepoint.char ')' :: rest)) = some ⟨raw, rest⟩ := by
  have closed : isInside (Codepoint.char ')') = false := by decide
  exact takeReference_of_importedUrl (read.takeQuoted_bare closed rest)

theorem takeReference_importedQuoted (read : IsRaw raw) (quote : Codepoint) (quoted : isQuote quote = true)
    (rest : Text) :
    takeReference (("@import url(" : Text) ++ quote :: (raw ++ quote :: Codepoint.char ')' :: rest)) =
      some ⟨raw, rest⟩ := by
  have taken := takeReference_of_importedUrl
    (read.takeQuoted_quoted quoted (isInside_of_isQuote quoted) (Codepoint.char ')' :: rest))
  rwa [passClosing_quote quoted, if_pos (List.head?_cons ..)] at taken

theorem takeReference_url (read : IsRaw raw) (solid : ∀ c ∈ raw.head?, c.isBlank = false) (rest : Text) :
    takeReference (("url(" : Text) ++ (raw ++ Codepoint.char ')' :: rest)) = some ⟨raw, rest⟩ := by
  rw [← List.head?_append_of_ne_nil _ read.nonempty] at solid
  exact takeReference_of_url [] (by decide) solid (read.takeUrl_bare rest)

theorem takeReference_urlQuoted (read : IsRaw raw) (quote : Codepoint) (quoted : isQuote quote = true)
    (before after : Text) (blank : ∀ c ∈ before, c.isBlank = true) (blanks : ∀ c ∈ after, c.isBlank = true)
    (rest : Text) :
    takeReference (("url(" : Text) ++
      (before ++ quote :: (raw ++ quote :: (after ++ Codepoint.char ')' :: rest)))) = some ⟨raw, rest⟩ :=
  takeReference_of_url before blank (head_of_isQuote quoted _).1 (read.takeUrl_quoted quoted blanks rest)

end IsRaw

end Stylesheet

end Deadwood
