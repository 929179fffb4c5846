import Deadwood.Json.Reader
import Deadwood.Proofs.Text
import Deadwood.Proofs.Utf8

/-!
# Reading back JSON

An object whose members are lists of strings is read back as it was written.
The strings may hold any code points; those that JSON reserves are escaped, and
reading undoes each escape.  Nothing depends on the place where a value stands.
-/

namespace Deadwood

theorem Codepoint.ofNat?_value (c : Codepoint) : ofNat? c.value = some c := by
  cases c with
  | char c =>
    have valid : c.toNat.isValidChar := Encoding.toNat_scalar c
    rw [ofNat?, value, dif_pos valid]
    exact congrArg some (congrArg char (Char.ext (UInt32.toNat_inj.mp (UInt32.toNat_ofNatLT ..))))
  | surrogate index =>
    have low := index.isLt
    have invalid : ¬ (0xD800 + index.val).isValidChar := by
      rw [Nat.isValidChar]
      omega
    have offset : 0xD800 + index.val - 0xD800 = index.val := Nat.add_sub_cancel_left ..
    rw [ofNat?, value, dif_neg invalid, dif_pos (by omega), if_pos (by omega)]
    exact congrArg some (congrArg surrogate (Fin.ext offset))

namespace Json

/-! ## Strings -/

/-- A code point is escaped by a letter or by its number, or it stands for itself. -/
theorem escapeCodepoint_cases (c : Codepoint) :
    (∃ e : Char, simpleEscape? (Codepoint.char e) = some c ∧
      escapeCodepoint c = [Codepoint.char '\\', Codepoint.char e]) ∨
    (c.value < 0x20 ∧ escapeCodepoint c = "\\u" ++ Text.hexDigits 4 c.value) ∨
    (c ≠ Codepoint.char '\x22' ∧ c ≠ Codepoint.char '\\' ∧ ¬ c.value < 0x20 ∧ escapeCodepoint c = [c]) := by
  unfold escapeCodepoint
  split
  case isTrue quote => exact .inl ⟨'\x22', congrArg some quote.symm, rfl⟩
  split
  case isTrue slash => exact .inl ⟨'\\', congrArg some slash.symm, rfl⟩
  split
  case isTrue feed => exact .inl ⟨'n', congrArg some feed.symm, rfl⟩
  split
  case isTrue back => exact .inl ⟨'r', congrArg some back.symm, rfl⟩
  split
  case isTrue tab => exact .inl ⟨'t', congrArg some tab.symm, rfl⟩
  split
  case isTrue form => exact .inl ⟨'f', congrArg some (Codepoint.value_injective form).symm, rfl⟩
  split
  case isTrue bell => exact .inl ⟨'b', congrArg some (Codepoint.value_injective bell).symm, rfl⟩
  split
  case isTrue control => exact .inr (.inl ⟨control, rfl⟩)
  case isFalse quote slash _ _ _ _ _ control => exact .inr (.inr ⟨quote, slash, control, rfl⟩)

section

variable {start position : Nat} {found more : Text} {c : Codepoint}

/-- Code points that belong to an escape are passed over. -/
theorem readString_skip (start : Nat) (found front more : Text) (position : Nat) :
    readString start found front.length position (front ++ more) =
      readString start found 0 (position + front.length) more := by
  induction front generalizing position with
  | nil => rfl
  | cons c front ih =>
    rw [List.length_cons, List.cons_append, readString, ih, Nat.add_right_comm, Nat.add_assoc]

theorem readString_simple {e : Codepoint} (escape : simpleEscape? e = some c) :
    readString start found 0 position (Codepoint.char '\\' :: e :: more) =
      readString start (c :: found) 0 (position + 2) more := by
  have other : e ≠ Codepoint.char 'u' := by
    rintro rfl
    cases escape
  rw [readString, if_neg (by decide), if_pos rfl]
  simp only [other, if_false, escape]
  exact readString_skip start (c :: found) [e] more (position + 1)

theorem hexValue?_digitChar {n : Nat} (small : n < 16) :
    hexValue? (Codepoint.char n.digitChar) = some n := by
  revert n
  decide

theorem hexDigits_four {n : Nat} (small : n < 0x20) :
    Text.hexDigits 4 n = Text.ofChars ['0', '0', (n / 16).digitChar, (n % 16).digitChar] := by
  revert n
  decide

theorem fourHex?_hexDigits {n : Nat} (small : n < 0x20) (nonempty : more ≠ []) :
    fourHex? (Text.hexDigits 4 n ++ more) = some n := by
  obtain ⟨d, more, rfl⟩ := List.exists_cons_of_ne_nil nonempty
  have upper := hexValue?_digitChar (n := n / 16) (by omega)
  have lower := hexValue?_digitChar (n := n % 16) (by omega)
  have zero : hexValue? (Codepoint.char '0') = some 0 := rfl
  rw [hexDigits_four small]
  simp only [Text.ofChars, List.map_cons, List.map_nil, List.cons_append, List.nil_append, fourHex?, zero,
    upper, lower, bind, Option.bind, pure, Option.some.injEq]
  omega

theorem unicodeEscape_hexDigits (small : c.value < 0x20) (nonempty : more ≠ []) (position : Nat) :
    unicodeEscape { rest := Text.hexDigits 4 c.value ++ more, position } = .ok (c, 4) := by
  have single : ¬ 0xD800 ≤ c.value := by omega
  simp only [unicodeEscape, fourHex?_hexDigits small nonempty, single, decide_false, Bool.false_and,
    Bool.false_eq_true, if_false, Codepoint.ofNat?_value, Option.getD_some]
  rfl

theorem readString_control (small : c.value < 0x20) (nonempty : more ≠ []) :
    readString start found 0 position ("\\u" ++ Text.hexDigits 4 c.value ++ more) =
      readString start (c :: found) 0 (position + 6) more := by
  have opened : ("\\u" : Text) ++ Text.hexDigits 4 c.value ++ more =
      Codepoint.char '\\' :: Codepoint.char 'u' :: (Text.hexDigits 4 c.value ++ more) := rfl
  have width : (Codepoint.char 'u' :: Text.hexDigits 4 c.value).length = 5 := by
    rw [hexDigits_four small]
    rfl
  have skipped := readString_skip start (c :: found) (Codepoint.char 'u' :: Text.hexDigits 4 c.value) more
    (position + 1)
  rw [width] at skipped
  rw [opened, readString, if_neg (by decide), if_pos rfl]
  dsimp only
  rw [if_pos rfl, unicodeEscape_hexDigits small nonempty]
  exact skipped

theorem readString_plain (quote : c ≠ Codepoint.char '\x22') (slash : c ≠ Codepoint.char '\\')
    (control : ¬ c.value < 0x20) (nonempty : more ≠ []) :
    readString start found 0 position (c :: more) =
      readString start (c :: found) 0 (position + 1) more := by
  obtain ⟨d, more, rfl⟩ := List.exists_cons_of_ne_nil nonempty
  rw [readString, if_neg quote, if_neg slash, if_neg control]

/-- Reading undoes the escape of a code point. -/
theorem readString_escapeCodepoint (start : Nat) (found : Text) (position : Nat) (c : Codepoint)
    (nonempty : more ≠ []) : ∃ later, readString start found 0 position (escapeCodepoint c ++ more) =
      readString start (c :: found) 0 later more := by
  rcases escapeCodepoint_cases c with ⟨e, escape, written⟩ | ⟨control, written⟩ | ⟨quote, slash, control, written⟩
  · rw [written]
    exact ⟨_, readString_simple escape⟩
  · rw [written]
    exact ⟨_, readString_control control nonempty⟩
  · rw [written]
    exact ⟨_, readString_plain quote slash control nonempty⟩

theorem readString_text (start : Nat) (found text rest : Text) (position : Nat) : ∃ later,
    readString start found 0 position (text.flatMap escapeCodepoint ++ Codepoint.char '\x22' :: rest) =
      .ok (found.reverse ++ text, { rest, position := later }) := by
  induction text generalizing found position with
  | nil =>
    refine ⟨position + 1, ?_⟩
    rw [List.flatMap_nil, List.nil_append, List.append_nil]
    cases rest <;> rw [readString, if_pos rfl] <;> rfl
  | cons c text ih =>
    rw [List.flatMap_cons, List.append_assoc]
    have nonempty : text.flatMap escapeCodepoint ++ Codepoint.char '\x22' :: rest ≠ [] := by simp
    obtain ⟨middle, first⟩ := readString_escapeCodepoint start found position c nonempty
    obtain ⟨later, read⟩ := ih (c :: found) middle
    refine ⟨later, ?_⟩
    rw [first, read, List.reverse_cons, List.append_assoc, List.singleton_append]

end

/-! ## Values -/

/-- A reader takes a value from the front of a text and goes on with the rest, wherever that stands. -/
def Takes {α : Type} (reader : Place → Except ReadError (α × Place)) (text : Text) (value : α)
    (rest : Text) : Prop :=
  ∀ position, ∃ later, reader { rest := text, position } = .ok (value, { rest, position := later })

/-- Blanks before a text that does not go on with one. -/
structure Spaced (blanks text : Text) : Prop where
  blank : ∀ c ∈ blanks, Place.isBlank c = true
  stops : ∀ c ∈ text.head?, Place.isBlank c = false

theorem Spaced.of_cons {blanks rest : Text} {c : Codepoint} (blank : ∀ c ∈ blanks, Place.isBlank c = true)
    (stops : Place.isBlank c = false) : Spaced blanks (c :: rest) :=
  ⟨blank, by simpa using stops⟩

namespace Place

theorem isBlank_comma : isBlank (Codepoint.char ',') = false := rfl

theorem isBlank_colon : isBlank (Codepoint.char ':') = false := rfl

theorem sees_cons (c d : Char) (rest : Text) (position : Nat) :
    sees { rest := Codepoint.char d :: rest, position } c = decide (d = c) := by
  simp [sees]

theorem skip_cons (c : Codepoint) (rest : Text) (position : Nat) :
    skip { rest := c :: rest, position } 1 = { rest, position := position + 1 } := rfl

theorem skipBlanks_append {blanks text : Text} (spaced : Spaced blanks text) (position : Nat) :
    skipBlanks { rest := blanks ++ text, position } =
      { rest := text, position := position + blanks.length } := by
  have front : (blanks ++ text).takeWhile isBlank = blanks := by
    rw [List.takeWhile_append_of_pos spaced.blank]
    cases text with
    | nil => simp
    | cons c rest => simp [spaced.stops c rfl]
  rw [skipBlanks, front, skip, List.drop_left]

theorem skipBlanks_cons {c : Codepoint} (stops : isBlank c = false) (rest : Text) (position : Nat) :
    skipBlanks { rest := c :: rest, position } = { rest := c :: rest, position } :=
  skipBlanks_append (Spaced.of_cons (List.forall_mem_nil _) stops) position

end Place

section

variable {bound depth : Nat} {text blanks between more rest : Text} {value whole : Json}

theorem renderString_append (text rest : Text) : renderString text ++ rest =
    Codepoint.char '\x22' :: (text.flatMap escapeCodepoint ++ Codepoint.char '\x22' :: rest) := by
  simp [renderString]

theorem spaced_renderString (blank : ∀ c ∈ blanks, Place.isBlank c = true) :
    Spaced blanks (renderString text ++ rest) := by
  rw [renderString_append]
  exact .of_cons blank rfl

/-- What is behind the quote that opens a string. -/
theorem readString_opened (text rest : Text) (position : Nat) : ∃ later,
    readString position [] 0 (position + 1) ((renderString text ++ rest).drop 1) =
      .ok (text, { rest, position := later }) := by
  rw [renderString_append, List.drop_succ_cons, List.drop_zero]
  exact readString_text position [] text rest (position + 1)

theorem takes_string (bound depth : Nat) (text rest : Text) :
    Takes (readValue (bound + 1) depth) (renderString text ++ rest) (.string text) rest := by
  intro position
  obtain ⟨later, read⟩ := readString_opened text rest position
  refine ⟨later, ?_⟩
  rw [readValue, renderString_append, Place.sees_cons, if_pos (by decide), ← renderString_append, read]
  rfl

theorem takes_array (deep : depth ≠ 0) (spaced : Spaced blanks more)
    (nonempty : more.head? ≠ some (Codepoint.char ']'))
    (items : Takes (readItems bound (depth - 1) []) more whole rest) :
    Takes (readValue (bound + 1) depth) (Codepoint.char '[' :: (blanks ++ more)) whole rest := by
  intro position
  obtain ⟨last, read⟩ := items (position + 1 + blanks.length)
  refine ⟨last, ?_⟩
  have inside : Place.sees { rest := more, position := position + 1 + blanks.length } ']' = false :=
    decide_eq_false nonempty
  simp only [readValue, Place.sees_cons, Place.skip_cons, Place.skipBlanks_append spaced, inside, deep]
  exact read

theorem takes_object (deep : depth ≠ 0) (spaced : Spaced blanks more)
    (nonempty : more.head? ≠ some (Codepoint.char '\x7d'))
    (members : Takes (readMembers bound (depth - 1) []) more whole rest) :
    Takes (readValue (bound + 1) depth) (Codepoint.char '\x7b' :: (blanks ++ more)) whole rest := by
  intro position
  obtain ⟨last, read⟩ := members (position + 1 + blanks.length)
  refine ⟨last, ?_⟩
  have inside : Place.sees { rest := more, position := position + 1 + blanks.length } '\x7d' = false :=
    decide_eq_false nonempty
  simp only [readValue, Place.sees_cons, Place.skip_cons, Place.skipBlanks_append spaced, inside, deep]
  exact read

section

variable (found : List Json)

theorem takes_last_item (closing : Spaced blanks (Codepoint.char ']' :: rest))
    (item : Takes (readValue bound depth) text value (blanks ++ Codepoint.char ']' :: rest)) :
    Takes (readItems (bound + 1) depth found) text (.array (value :: found).reverse) rest := by
  intro position
  obtain ⟨middle, read⟩ := item position
  refine ⟨middle + blanks.length + 1, ?_⟩
  simp only [readItems, read, bind, Except.bind, Place.skipBlanks_append closing,
    Place.sees_cons, Place.skip_cons]
  rfl

theorem takes_more_items (spaced : Spaced blanks more)
    (item : Takes (readValue bound depth) text value (Codepoint.char ',' :: (blanks ++ more)))
    (items : Takes (readItems bound depth (value :: found)) more whole rest) :
    Takes (readItems (bound + 1) depth found) text whole rest := by
  intro position
  obtain ⟨middle, read⟩ := item position
  obtain ⟨last, others⟩ := items (middle + 1 + blanks.length)
  refine ⟨last, ?_⟩
  rw [readItems, read]
  simp only [bind, Except.bind, Place.skipBlanks_cons Place.isBlank_comma,
    Place.sees_cons, Place.skip_cons, Place.skipBlanks_append spaced]
  exact others

end

section

variable (found : List (Text × Json)) (name : Text)

theorem takes_last_member (spaced : Spaced between text)
    (closing : Spaced blanks (Codepoint.char '\x7d' :: rest))
    (member : Takes (readValue bound depth) text value (blanks ++ Codepoint.char '\x7d' :: rest)) :
    Takes (readMembers (bound + 1) depth found)
      (renderString name ++ Codepoint.char ':' :: (between ++ text))
      (.object ((name, value) :: found).reverse) rest := by
  intro position
  obtain ⟨named, opened⟩ := readString_opened name (Codepoint.char ':' :: (between ++ text)) position
  obtain ⟨middle, read⟩ := member (named + 1 + between.length)
  refine ⟨middle + blanks.length + 1, ?_⟩
  rw [readMembers, opened, renderString_append]
  simp only [bind, Except.bind, Place.skipBlanks_cons Place.isBlank_colon,
    Place.sees_cons, Place.skip_cons, Place.skipBlanks_append spaced, read,
    Place.skipBlanks_append closing]
  rfl

theorem takes_more_members (spaced : Spaced between text) (onward : Spaced blanks more)
    (member : Takes (readValue bound depth) text value (Codepoint.char ',' :: (blanks ++ more)))
    (members : Takes (readMembers bound depth ((name, value) :: found)) more whole rest) :
    Takes (readMembers (bound + 1) depth found)
      (renderString name ++ Codepoint.char ':' :: (between ++ text)) whole rest := by
  intro position
  obtain ⟨named, opened⟩ := readString_opened name (Codepoint.char ':' :: (between ++ text)) position
  obtain ⟨middle, read⟩ := member (named + 1 + between.length)
  obtain ⟨last, others⟩ := members (middle + 1 + blanks.length)
  refine ⟨last, ?_⟩
  rw [readMembers, opened, renderString_append]
  simp only [bind, Except.bind, Place.skipBlanks_cons Place.isBlank_colon,
    Place.skipBlanks_cons Place.isBlank_comma,
    Place.sees_cons, Place.skip_cons, Place.skipBlanks_append spaced, read, Place.skipBlanks_append onward]
  exact others

end

end

/-! ## Lists of strings -/

/-- The entries of a list behind the first one, each on a line of its own. -/
def further (indent : Text) (entries : List Text) : Text :=
  entries.flatMap fun entry => Codepoint.char ',' :: (Codepoint.char '\n' :: indent ++ entry)

theorem further_cons (indent entry : Text) (entries : List Text) (rest : Text) :
    further indent (entry :: entries) ++ rest = Codepoint.char ',' ::
      (Codepoint.char '\n' :: indent ++ (entry ++ (further indent entries ++ rest))) := by
  simp [further]

theorem length_further_cons (indent entry : Text) (entries : List Text) :
    (further indent (entry :: entries)).length =
      indent.length + entry.length + (further indent entries).length + 2 := by
  simp only [further, List.flatMap_cons, List.length_append, List.length_cons]
  omega

theorem joinWith_cons (indent entry : Text) (entries : List Text) :
    Text.joinWith ",\n" ((entry :: entries).map (indent ++ ·)) =
      indent ++ entry ++ further indent entries := by
  induction entries generalizing entry with
  | nil => simp [Text.joinWith, further]
  | cons next entries ih =>
    have front : Text.joinWith ",\n" ((entry :: next :: entries).map (indent ++ ·)) =
        indent ++ entry ++ ",\n" ++ Text.joinWith ",\n" ((next :: entries).map (indent ++ ·)) := by
      simp [Text.joinWith, List.intercalate]
    rw [front, ih, ← List.append_nil (further indent (next :: entries)), further_cons]
    simp [Text.ofString]

theorem renderStrings_cons (indent text : Text) (texts : List Text) (rest : Text) :
    renderStrings indent (text :: texts) ++ rest = Codepoint.char '[' ::
      (Codepoint.char '\n' :: (indent ++ "  ") ++ (renderString text ++
        (further (indent ++ "  ") (texts.map renderString) ++
          (Codepoint.char '\n' :: indent ++ Codepoint.char ']' :: rest)))) := by
  have joined := joinWith_cons (indent ++ "  ") (renderString text) (texts.map renderString)
  rw [← List.map_cons, List.map_map] at joined
  rw [renderStrings, if_neg (List.cons_ne_nil text texts)]
  dsimp only
  rw [show (fun text => indent ++ "  " ++ renderString text) =
    (indent ++ "  " ++ ·) ∘ renderString from rfl, joined]
  simp [Text.ofString]

section

variable {bound depth : Nat} {indent blanks rest : Text}

/-- The length of the text still to be read is fuel enough. -/
theorem takes_items (blank : ∀ c ∈ Codepoint.char '\n' :: indent, Place.isBlank c = true)
    (closing : Spaced blanks (Codepoint.char ']' :: rest)) (found : List Json) (text : Text)
    (texts : List Text) (enough : (further indent (texts.map renderString)).length + 2 ≤ bound) :
    Takes (readItems bound depth found)
      (renderString text ++
        (further indent (texts.map renderString) ++ (blanks ++ Codepoint.char ']' :: rest)))
      (.array (found.reverse ++ (text :: texts).map Json.string)) rest := by
  induction texts generalizing bound found text with
  | nil =>
    obtain ⟨bound, rfl⟩ := Nat.exists_eq_add_of_le' enough
    have last := takes_last_item found closing (takes_string bound depth text _)
    simpa [further] using last
  | cons next texts ih =>
    rw [List.map_cons, length_further_cons] at enough
    obtain ⟨bound, rfl⟩ : ∃ less, bound = less + 2 := ⟨bound - 2, by omega⟩
    have later := ih (.string text :: found) next (show _ ≤ bound + 1 by omega)
    rw [List.map_cons, further_cons]
    have all := takes_more_items found (spaced_renderString blank) (takes_string bound depth text _) later
    simpa using all

theorem takes_strings (deep : depth ≠ 0) (blank : ∀ c ∈ indent, Place.isBlank c = true)
    (texts : List Text) (rest : Text) (enough : (renderStrings indent texts).length ≤ bound) :
    Takes (readValue bound depth) (renderStrings indent texts ++ rest)
      (.array (texts.map Json.string)) rest := by
  cases texts with
  | nil =>
    obtain ⟨bound, rfl⟩ : ∃ less, bound = less + 1 :=
      Nat.exists_eq_add_of_le' (Nat.le_of_succ_le enough)
    intro position
    refine ⟨position + 2, ?_⟩
    have empty : renderStrings indent [] ++ rest = Codepoint.char '[' :: Codepoint.char ']' :: rest := rfl
    rw [empty, readValue]
    simp only [Place.sees_cons, Place.skip_cons, deep,
      Place.skipBlanks_cons (show Place.isBlank (Codepoint.char ']') = false from rfl)]
    rfl
  | cons text texts =>
    have size := congrArg List.length (renderStrings_cons indent text texts [])
    simp only [List.append_nil, List.length_append, List.length_cons] at size
    obtain ⟨bound, rfl⟩ : ∃ less, bound = less + 1 := ⟨bound - 1, by omega⟩
    have blanks : ∀ c ∈ Codepoint.char '\n' :: (indent ++ "  "), Place.isBlank c = true := by
      simpa [or_imp, forall_and] using ⟨rfl, blank, by decide⟩
    have indented : ∀ c ∈ Codepoint.char '\n' :: indent, Place.isBlank c = true :=
      List.forall_mem_cons.mpr ⟨rfl, blank⟩
    rw [renderStrings_cons]
    refine takes_array deep (spaced_renderString blanks) (by simp [renderString_append]) ?_
    exact takes_items blanks (.of_cons indented rfl) [] text texts (by omega)

end

/-! ## Objects of lists -/

/-- A member of an object as it is written. -/
def memberText (member : Text × List Text) : Text :=
  renderString member.1 ++ ": " ++ renderStrings "  " member.2

/-- A member of an object as it is read. -/
def memberValue (member : Text × List Text) : Text × Json :=
  (member.1, .array (member.2.map .string))

theorem memberText_append (member : Text × List Text) (rest : Text) :
    memberText member ++ rest = renderString member.1 ++ Codepoint.char ':' ::
      ([Codepoint.char ' '] ++ (renderStrings "  " member.2 ++ rest)) := by
  simp [memberText, Text.ofString]

theorem spaced_memberText (member : Text × List Text) (rest : Text) :
    Spaced (Codepoint.char '\n' :: "  ") (memberText member ++ rest) := by
  rw [memberText_append]
  exact spaced_renderString (by decide)

theorem length_renderStrings_lt (member : Text × List Text) :
    (renderStrings "  " member.2).length + 2 ≤ (memberText member).length := by
  simp [memberText, Text.ofString]

theorem spaced_renderStrings (texts : List Text) (rest : Text) :
    Spaced [Codepoint.char ' '] (renderStrings "  " texts ++ rest) := by
  have blank : ∀ c ∈ [Codepoint.char ' '], Place.isBlank c = true := by decide
  cases texts with
  | nil => exact .of_cons blank rfl
  | cons text texts =>
    rw [renderStrings_cons]
    exact .of_cons blank rfl

theorem takes_memberValue {bound depth : Nat} (deep : depth ≠ 0) (member : Text × List Text)
    (rest : Text) (enough : (memberText member).length ≤ bound + 1) :
    Takes (readValue bound depth) (renderStrings "  " member.2 ++ rest) (memberValue member).2 rest := by
  have longer := length_renderStrings_lt member
  exact takes_strings deep (by decide) member.2 rest (by omega)

theorem takes_members {bound depth : Nat} {blanks rest : Text} (deep : depth ≠ 0)
    (closing : Spaced blanks (Codepoint.char '\x7d' :: rest)) (found : List (Text × Json))
    (member : Text × List Text) (members : List (Text × List Text))
    (enough : (memberText member).length + (further "  " (members.map memberText)).length ≤ bound) :
    Takes (readMembers bound depth found)
      (memberText member ++
        (further "  " (members.map memberText) ++ (blanks ++ Codepoint.char '\x7d' :: rest)))
      (.object (found.reverse ++ (member :: members).map memberValue)) rest := by
  induction members generalizing bound found member with
  | nil =>
    have longer := length_renderStrings_lt member
    obtain ⟨bound, rfl⟩ : ∃ less, bound = less + 1 := ⟨bound - 1, by omega⟩
    have last := takes_last_member found member.1 (spaced_renderStrings member.2 _) closing
      (takes_memberValue deep member _ (show _ ≤ bound + 1 by omega))
    rw [memberText_append]
    simpa [further, memberValue] using last
  | cons next members ih =>
    rw [List.map_cons, length_further_cons] at enough
    obtain ⟨bound, rfl⟩ : ∃ less, bound = less + 1 := ⟨bound - 1, by omega⟩
    have all := takes_more_members found member.1 (spaced_renderStrings member.2 _)
      (spaced_memberText next _)
      (takes_memberValue deep member _ (show _ ≤ bound + 1 by omega))
      (ih (memberValue member :: found) next (by omega))
    rw [List.map_cons, further_cons, memberText_append]
    simpa using all

theorem renderLists_eq (members : List (Text × List Text)) : renderLists members =
    "\x7b\n" ++ Text.joinWith ",\n" (members.map fun member => "  " ++ memberText member) ++ "\n\x7d" := by
  have written (member : Text × List Text) : "  " ++ memberText member =
      "  " ++ renderString member.1 ++ ": " ++ renderStrings "  " member.2 := by
    simp [memberText]
  simp only [written]
  rfl

theorem renderLists_cons (member : Text × List Text) (members : List (Text × List Text)) :
    renderLists (member :: members) = Codepoint.char '\x7b' ::
      (Codepoint.char '\n' :: "  " ++ (memberText member ++
        (further "  " (members.map memberText) ++ ([Codepoint.char '\n'] ++ [Codepoint.char '\x7d'])))) := by
  have joined := joinWith_cons "  " (memberText member) (members.map memberText)
  rw [← List.map_cons, List.map_map] at joined
  rw [renderLists_eq, show (fun member => "  " ++ memberText member) =
    (("  " : Text) ++ ·) ∘ memberText from rfl, joined]
  simp [Text.ofString]

theorem takes_lists {bound depth : Nat} (deep : 1 < depth) (member : Text × List Text)
    (members : List (Text × List Text)) (enough : (renderLists (member :: members)).length ≤ bound) :
    Takes (readValue bound depth) (renderLists (member :: members))
      (.object ((member :: members).map memberValue)) [] := by
  rw [renderLists_cons] at enough ⊢
  simp only [List.length_append, List.length_cons] at enough
  obtain ⟨bound, rfl⟩ : ∃ less, bound = less + 1 := ⟨bound - 1, by omega⟩
  refine takes_object (by omega) (spaced_memberText member _)
    (by simp [memberText_append, renderString_append]) ?_
  exact takes_members (by omega) (.of_cons (by decide) rfl) [] member members (by omega)

/-- What is written is read back, member by member in the same order. -/
theorem read_renderLists (members : List (Text × List Text)) :
    read (renderLists members) = .ok (.object (members.map memberValue)) := by
  cases members with
  | nil => rfl
  | cons member members =>
    obtain ⟨last, taken⟩ := takes_lists (show 1 < depthLimit by decide) member members
      (show _ ≤ 2 * (renderLists (member :: members)).length + 2 by omega) 0
    have opening : Place.skipBlanks { rest := renderLists (member :: members), position := 0 } =
        { rest := renderLists (member :: members), position := 0 } := by
      rw [renderLists_cons]
      exact Place.skipBlanks_cons rfl _ 0
    have plain : (renderLists (member :: members)).head? ≠ some (Codepoint.char '\ufeff') := by
      simp [renderLists_cons]
    rw [read, if_neg plain]
    simp only [opening, taken, bind, Except.bind]
    rfl

end Json

end Deadwood
