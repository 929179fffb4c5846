import Deadwood.Proofs.Text
import Deadwood.Proofs.Utf8

/-!
# Paths as they are shown

A shown path has no surrogates, and a path without surrogates is shown as it is.
A name that is no text is shown with a mark for every byte at which no character
begins.  The marks can be told from the rest unless the name has a backslash of
its own.
-/

namespace Deadwood

open Encoding

variable {text path other : Text} {bytes : Bytes}

/-! ## Texts without surrogates -/

namespace Text

@[simp] theorem hasSurrogate_append (text other : Text) :
    (text ++ other).hasSurrogate = (text.hasSurrogate || other.hasSurrogate) :=
  List.any_append

@[simp] theorem hasSurrogate_ofChars (cs : List Char) : (ofChars cs).hasSurrogate = false := by
  rw [hasSurrogate, ofChars, List.any_map]
  exact List.any_eq_false.mpr fun c _ => Bool.false_ne_true

theorem hasSurrogate_flatMap {α : Type} {f : α → Text} {xs : List α}
    (free : ∀ x ∈ xs, (f x).hasSurrogate = false) : hasSurrogate (xs.flatMap f) = false := by
  induction xs with
  | nil => rfl
  | cons x xs ih =>
    obtain ⟨head, tail⟩ := List.forall_mem_cons.mp free
    rw [List.flatMap_cons, hasSurrogate_append, head, ih tail]
    rfl

theorem exists_ofChars (free : text.hasSurrogate = false) : ∃ cs, text = ofChars cs := by
  induction text with
  | nil => exact ⟨[], rfl⟩
  | cons c rest ih =>
    obtain ⟨head, tail⟩ := Bool.or_eq_false_iff.mp free
    obtain ⟨cs, rfl⟩ := ih tail
    cases c with
    | char c => exact ⟨c :: cs, rfl⟩
    | surrogate index => cases head

end Text

theorem Encoding.hasSurrogate_decodeUtf8 {policy : Policy}
    (marks : ∀ bytes, (policy.text bytes).hasSurrogate = false) (bytes : Bytes) :
    (decodeUtf8 policy bytes).hasSurrogate = false := by
  apply Text.hasSurrogate_flatMap
  intro piece _
  cases piece with
  | char c => rfl
  | bad stretch reason => exact marks stretch

/-! ## Bytes behind a text -/

namespace Encoding

theorem encodeEscaped?_cons (c : Codepoint) (rest : Text) :
    encodeEscaped? (c :: rest) = (escapedByte? c).bind fun front => (encodeEscaped? rest).map (front ++ ·) := by
  cases front : escapedByte? c with
  | none => simp [encodeEscaped?, front]
  | some bytes => cases back : rest.mapM escapedByte? <;> simp [encodeEscaped?, front, back]

theorem encodeEscaped?_ofChars (cs : List Char) : encodeEscaped? (Text.ofChars cs) = some (utf8 cs) := by
  induction cs with
  | nil => rfl
  | cons c cs ih =>
    rw [Text.ofChars, List.map_cons, ← Text.ofChars, encodeEscaped?_cons, ih]
    rfl

/-- A byte at which no character begins is not one of ASCII. -/
theorem high_of_stray {b : UInt8} {rest : Bytes} (stray : ∀ c, ¬ utf8Char c <+: b :: rest) :
    0x80 ≤ b.toNat := by
  refine Nat.not_lt.mp fun low => stray (Char.ofNat b.toNat) ?_
  rw [(Row.one low).utf8Char]
  exact List.prefix_append [b] rest

theorem escapedByte?_escapeByte {b : UInt8} (high : 0x80 ≤ b.toNat) :
    escapedByte? (escapeByte b) = some [b] := by
  have low := b.toNat_lt
  rw [escapeByte, escapedByte?, if_pos (by simp; omega), Nat.add_sub_cancel_left, UInt8.ofNat_toNat]

/-- A text in which surrogates stand for bytes gives back the bytes that it spells. -/
theorem Spelled.encodeEscaped? (spelled : Spelled (fun b => [escapeByte b]) bytes text) :
    encodeEscaped? text = some bytes := by
  induction spelled with
  | nil => rfl
  | char c later ih =>
    rw [encodeEscaped?_cons, ih]
    rfl
  | stray stray later ih =>
    rw [List.singleton_append, encodeEscaped?_cons, ih, escapedByte?_escapeByte (high_of_stray stray)]
    rfl

theorem text_escape (bytes : Bytes) :
    Policy.text .escape bytes = bytes.flatMap fun b => [escapeByte b] :=
  (List.flatMap_pure_eq_map escapeByte bytes).symm

/-! ## Marks of bytes -/

/-- A byte written as a backslash, `x` and two digits. -/
def hexMark (b : UInt8) : Text :=
  Text.ofChars ['\\', 'x', (b.toNat / 16).digitChar, (b.toNat % 16).digitChar]

theorem hexByte_eq (b : UInt8) : hexByte b = [(b.toNat / 16).digitChar, (b.toNat % 16).digitChar] := by
  have low := b.toNat_lt
  rcases Nat.lt_or_ge b.toNat 16 with single | double
  · simp [hexByte, Nat.toDigits_of_lt_base single, Nat.div_eq_of_lt single, Nat.mod_eq_of_lt single]
  · have digits : Nat.toDigits 16 b.toNat = [(b.toNat / 16).digitChar, (b.toNat % 16).digitChar] := by
      rw [Nat.toDigits_of_base_le (by decide) double, Nat.toDigits_of_lt_base (by omega)]
      rfl
    simp [hexByte, digits]

theorem text_backslash (bytes : Bytes) : Policy.text .backslash bytes = bytes.flatMap hexMark := by
  simp only [Policy.text, hexByte_eq]
  rfl

theorem digitChar_inj {m n : Nat} (left : m < 16) (right : n < 16) (same : m.digitChar = n.digitChar) :
    m = n := by
  have each : ∀ m < 16, ∀ n < 16, m.digitChar = n.digitChar → m = n := by decide
  exact each m left n right same

theorem hexMark_append_inj {b d : UInt8} (same : hexMark b ++ text = hexMark d ++ other) :
    b = d ∧ text = other := by
  have low := b.toNat_lt
  have below := d.toNat_lt
  simp only [hexMark, Text.ofChars, List.map_cons, List.map_nil, List.cons_append, List.nil_append,
    List.cons.injEq, Codepoint.char.injEq, true_and] at same
  obtain ⟨upper, lower, rest⟩ := same
  have quotient := digitChar_inj (by omega) (by omega) upper
  have remainder := digitChar_inj (by omega) (by omega) lower
  exact ⟨UInt8.toNat_inj.mp (by omega), rest⟩

theorem utf8Char_backslash : utf8Char '\\' = [0x5C] := rfl

/-- Bytes without a backslash are told apart by what they spell with marks. -/
theorem Spelled.bytes_eq {others : Bytes} (spelled : Spelled hexMark bytes text)
    (again : Spelled hexMark others text) (free : 0x5C ∉ bytes) (freely : 0x5C ∉ others) :
    bytes = others := by
  induction spelled generalizing others with
  | nil =>
    rcases again.cases with ⟨rfl, -⟩ | ⟨d, rest, later, rfl, same, -⟩ | ⟨b, rest, later, rfl, -, same, -⟩
    · rfl
    · cases same
    · cases same
  | @char c rest text later ih =>
    obtain ⟨own, free⟩ := not_or.mp (mt List.mem_append.mpr free)
    rcases again.cases with ⟨-, same⟩ | ⟨d, others, later, rfl, same, again⟩ |
      ⟨b, others, later, rfl, -, same, -⟩
    · cases same
    · cases same
      rw [ih again free (mt (List.mem_append_right _) freely)]
    · cases same
      exact absurd List.mem_cons_self own
  | @stray b rest text stray later ih =>
    rcases again.cases with ⟨-, same⟩ | ⟨d, others, later, rfl, same, -⟩ |
      ⟨d, others, later, rfl, -, same, again⟩
    · cases same
    · cases same
      exact absurd (List.mem_append_left _ List.mem_cons_self) freely
    · obtain ⟨rfl, rfl⟩ := hexMark_append_inj same
      rw [ih again (mt (List.mem_cons_of_mem b) free) (mt (List.mem_cons_of_mem b) freely)]

theorem decodeUtf8_backslash_inj {others : Bytes} (free : 0x5C ∉ bytes) (freely : 0x5C ∉ others)
    (same : decodeUtf8 .backslash bytes = decodeUtf8 .backslash others) : bytes = others := by
  have spelled := spelled_decodeUtf8 text_backslash others
  rw [← same] at spelled
  exact (spelled_decodeUtf8 text_backslash bytes).bytes_eq spelled free freely

end Encoding

/-! ## Shown paths -/

namespace Text

theorem display_of_bytes (encoded : encodeEscaped? path = some bytes) :
    display path = decodeUtf8 .backslash bytes := by
  rw [display, encoded]

theorem display_of_none (unencoded : encodeEscaped? path = none) :
    display path = backslashSurrogates path := by
  rw [display, unencoded]

theorem hasSurrogate_display (path : Text) : (display path).hasSurrogate = false := by
  cases encoded : encodeEscaped? path with
  | none =>
    rw [display_of_none encoded]
    apply hasSurrogate_flatMap
    intro c _
    cases c with
    | char c => rfl
    | surrogate index => exact hasSurrogate_ofChars _
  | some bytes =>
    rw [display_of_bytes encoded]
    apply hasSurrogate_decodeUtf8
    intro stretch
    exact hasSurrogate_flatMap fun b _ => hasSurrogate_ofChars _

theorem display_of_free (free : path.hasSurrogate = false) : display path = path := by
  obtain ⟨cs, rfl⟩ := exists_ofChars free
  rw [display_of_bytes (encodeEscaped?_ofChars cs), decodeUtf8_utf8]

/-- A name is shown with the bytes marked that are no text. -/
theorem display_decodeUtf8 (bytes : Bytes) :
    display (decodeUtf8 .escape bytes) = decodeUtf8 .backslash bytes :=
  display_of_bytes (spelled_decodeUtf8 text_escape bytes).encodeEscaped?

/-- Names without a backslash are shown apart. -/
theorem bytes_eq_of_display_eq {others : Bytes} (free : 0x5C ∉ bytes) (freely : 0x5C ∉ others)
    (same : display (decodeUtf8 .escape bytes) = display (decodeUtf8 .escape others)) : bytes = others := by
  rw [display_decodeUtf8, display_decodeUtf8] at same
  exact decodeUtf8_backslash_inj free freely same

/-- What is shown can be written as UTF-8.  It is the path itself where that is text, so nothing changes
when it is shown again.  A name that is no text is shown with every byte marked at which no character
begins, and different names without a backslash are shown differently. -/
theorem display_is_faithful :
    (∀ path : Text, (display path).hasSurrogate = false) ∧
    (∀ path : Text, path.hasSurrogate = false → display path = path) ∧
    (∀ path : Text, display (display path) = display path) ∧
    (∀ bytes, decode .utf8 .escape bytes = .ok (decodeUtf8 .escape bytes) ∧
      decode .utf8 .backslash bytes = .ok (display (decodeUtf8 .escape bytes))) ∧
    (∀ bytes text, Spelled (fun b => [escapeByte b]) bytes text ↔ text = decodeUtf8 .escape bytes) ∧
    (∀ bytes text, Spelled hexMark bytes text ↔ text = display (decodeUtf8 .escape bytes)) ∧
    ∀ bytes others : Bytes, 0x5C ∉ bytes → 0x5C ∉ others → bytes ≠ others →
      display (decodeUtf8 .escape bytes) ≠ display (decodeUtf8 .escape others) := by
  refine ⟨hasSurrogate_display, fun path => display_of_free, ?_, ?_, ?_, ?_, ?_⟩
  · intro path
    exact display_of_free (hasSurrogate_display path)
  · intro bytes
    rw [display_decodeUtf8]
    exact ⟨decode_utf8 (by decide) bytes, decode_utf8 (by decide) bytes⟩
  · intro bytes text
    exact spelled_iff text_escape
  · intro bytes text
    rw [display_decodeUtf8]
    exact spelled_iff text_backslash
  · intro bytes others free freely differ same
    exact differ (bytes_eq_of_display_eq free freely same)

/-- A character that is cut off leaves two stray bytes; names cut off at different bytes stay apart. -/
theorem display_is_faithful_cut :
    display "caf\u00e9" = "caf\u00e9" ∧
    Spelled hexMark [0x61, 0xE2, 0x82] "a\\xe2\\x82" ∧
    display (decodeUtf8 .escape [0x61, 0xE2, 0x82]) ≠ display (decodeUtf8 .escape [0x61, 0xE2, 0x83]) := by
  obtain ⟨-, text, -, -, -, marked, apart⟩ := display_is_faithful
  exact ⟨text _ (by decide), (marked _ _).mpr (by decide +kernel), apart _ _ (by decide) (by decide) (by decide)⟩

end Text

/-! ## Paths shown alike -/

namespace Encoding

theorem eq_backslash_of_mem {c : Char} (member : 0x5C ∈ utf8Char c) : c = '\\' := by
  have row := row_utf8Char c
  have low : (0x5C : UInt8).toNat = 0x5C := rfl
  have single : utf8Char c = [0x5C] := by
    generalize utf8Char c = bytes at row member ⊢
    generalize c.toNat = n at row
    cases row with
    | one => rw [List.mem_singleton.mp member]
    | two high _ follows =>
      have tail := isTail_iff.mp (isSecond_iff.mp follows).1
      simp only [List.mem_cons, List.not_mem_nil, or_false] at member
      rcases member with rfl | rfl <;> omega
    | three high _ follows tail =>
      have inner := isTail_iff.mp (isSecond_iff.mp follows).1
      rw [isTail_iff] at tail
      simp only [List.mem_cons, List.not_mem_nil, or_false] at member
      rcases member with rfl | rfl | rfl <;> omega
    | four high _ follows tail last =>
      have inner := isTail_iff.mp (isSecond_iff.mp follows).1
      rw [isTail_iff] at tail last
      simp only [List.mem_cons, List.not_mem_nil, or_false] at member
      rcases member with rfl | rfl | rfl | rfl <;> omega
  have same : utf8Char c ++ [] = utf8Char '\\' ++ [] := by rw [single, utf8Char_backslash]
  exact (utf8Char_append_inj same).1

/-- Without a backslash in a text there is none in its bytes. -/
theorem not_mem_encodeEscaped? (encoded : encodeEscaped? path = some bytes)
    (free : Codepoint.char '\\' ∉ path) : 0x5C ∉ bytes := by
  induction path generalizing bytes with
  | nil =>
    cases encoded
    simp
  | cons c rest ih =>
    obtain ⟨own, free⟩ := not_or.mp (mt List.mem_cons.mpr free)
    rw [encodeEscaped?_cons, Option.bind_eq_some_iff] at encoded
    obtain ⟨front, head, joined⟩ := encoded
    obtain ⟨back, tail, rfl⟩ := Option.map_eq_some_iff.mp joined
    rw [List.mem_append, not_or]
    refine ⟨?_, ih tail free⟩
    intro member
    cases c with
    | char c =>
      cases head
      exact own (congrArg Codepoint.char (eq_backslash_of_mem member).symm)
    | surrogate index =>
      rw [escapedByte?] at head
      split at head
      case isFalse => cases head
      case isTrue range =>
        cases head
        simp only [Bool.and_eq_true, decide_eq_true_eq] at range
        have same := congrArg UInt8.toNat (List.mem_singleton.mp member)
        rw [show (0x5C : UInt8).toNat = 0x5C from rfl, UInt8.toNat_ofNat'] at same
        omega

theorem exists_surrogate (unencoded : encodeEscaped? path = none) :
    ∃ index, Codepoint.surrogate index ∈ path := by
  by_contra free
  have chars : path.hasSurrogate = false := by
    rw [Text.hasSurrogate, List.any_eq_false]
    rintro (c | index) member
    · exact Bool.false_ne_true
    · exact absurd ⟨index, member⟩ free
  obtain ⟨cs, rfl⟩ := Text.exists_ofChars chars
  rw [encodeEscaped?_ofChars] at unencoded
  cases unencoded

/-! ### Marks of surrogates -/

theorem toDigits_four {n : Nat} (high : 0x1000 ≤ n) (low : n < 0x10000) :
    Nat.toDigits 16 n = [(n / 0x1000).digitChar, (n / 0x100 % 16).digitChar, (n / 16 % 16).digitChar,
      (n % 16).digitChar] := by
  rw [Nat.toDigits_of_base_le (by decide) (by omega), Nat.toDigits_of_base_le (by decide) (by omega),
    Nat.toDigits_of_base_le (by decide) (by omega), Nat.toDigits_of_lt_base (by omega)]
  simp only [Nat.div_div_eq_div_mul]
  rfl

/-- A surrogate as it is shown. -/
def surrogateMark (index : Fin 2048) : Text :=
  Text.ofChars ('\\' :: 'u' :: Nat.toDigits 16 (Codepoint.surrogate index).value)

theorem surrogateMark_append_inj {index later : Fin 2048}
    (same : surrogateMark index ++ text = surrogateMark later ++ other) :
    index = later ∧ text = other := by
  have low := index.isLt
  have below := later.isLt
  simp only [surrogateMark, Codepoint.value, Text.ofChars] at same
  rw [toDigits_four (by omega) (by omega), toDigits_four (by omega) (by omega)] at same
  simp only [List.map_cons, List.map_nil, List.cons_append, List.nil_append, List.cons.injEq,
    Codepoint.char.injEq, true_and] at same
  obtain ⟨first, second, third, fourth, rest⟩ := same
  have firsts := digitChar_inj (by omega) (by omega) first
  have seconds := digitChar_inj (by omega) (by omega) second
  have thirds := digitChar_inj (by omega) (by omega) third
  have fourths := digitChar_inj (by omega) (by omega) fourth
  exact ⟨Fin.ext (by omega), rest⟩

theorem backslashSurrogates_append (text other : Text) :
    backslashSurrogates (text ++ other) = backslashSurrogates text ++ backslashSurrogates other :=
  List.flatMap_append

theorem backslashSurrogates_surrogate (index : Fin 2048) (rest : Text) :
    backslashSurrogates (Codepoint.surrogate index :: rest) =
      surrogateMark index ++ backslashSurrogates rest := rfl

/-- Texts without a backslash are told apart by what they are shown as with marks for surrogates. -/
theorem backslashSurrogates_inj (free : Codepoint.char '\\' ∉ path)
    (freely : Codepoint.char '\\' ∉ other) (same : backslashSurrogates path = backslashSurrogates other) :
    path = other := by
  induction path generalizing other with
  | nil =>
    cases other with
    | nil => rfl
    | cons d more => cases d <;> cases same
  | cons c rest ih =>
    obtain ⟨own, restFree⟩ := not_or.mp (mt List.mem_cons.mpr free)
    cases other with
    | nil => cases c <;> cases same
    | cons d more =>
      obtain ⟨others, moreFree⟩ := not_or.mp (mt List.mem_cons.mpr freely)
      cases c with
      | char c =>
        cases d with
        | char d =>
          obtain ⟨head, tail⟩ := List.cons_eq_cons.mp same
          rw [head, ih restFree moreFree tail]
        | surrogate index => exact absurd (List.cons_eq_cons.mp same).1.symm own
      | surrogate index =>
        cases d with
        | char d => exact absurd (List.cons_eq_cons.mp same).1 others
        | surrogate later =>
          obtain ⟨rfl, tail⟩ := surrogateMark_append_inj same
          rw [ih restFree moreFree tail]

/-- The beginning of the mark of a surrogate. -/
def surrogateStart : Text := [Codepoint.char '\\', Codepoint.char 'u']

theorem surrogateStart_isInfix {index : Fin 2048} (member : Codepoint.surrogate index ∈ path) :
    surrogateStart <:+: backslashSurrogates path := by
  obtain ⟨front, back, rfl⟩ := List.append_of_mem member
  refine ⟨backslashSurrogates front,
    Text.ofChars (Nat.toDigits 16 (Codepoint.surrogate index).value) ++ backslashSurrogates back, ?_⟩
  rw [backslashSurrogates_append, backslashSurrogates_surrogate]
  simp [surrogateMark, surrogateStart, Text.ofChars]

/-- The marks of bytes hold no mark of a surrogate. -/
theorem Spelled.not_surrogateStart (spelled : Spelled hexMark bytes text) (free : 0x5C ∉ bytes) :
    ¬ surrogateStart <:+: text := by
  induction spelled with
  | nil => simp [surrogateStart]
  | @char c rest text later ih =>
    obtain ⟨own, free⟩ := not_or.mp (mt List.mem_append.mpr free)
    rw [List.infix_cons_iff, not_or]
    refine ⟨?_, ih free⟩
    intro begins
    obtain ⟨same, -⟩ := List.cons_prefix_cons.mp begins
    cases same
    exact own List.mem_cons_self
  | @stray b rest text stray later ih =>
    have later := ih (mt (List.mem_cons_of_mem b) free)
    simp only [surrogateStart, hexMark, Text.ofChars, List.map_cons, List.map_nil, List.cons_append,
      List.nil_append, List.infix_cons_iff, List.cons_prefix_cons] at later ⊢
    simp [later]

end Encoding

namespace Text

theorem display_ne (encoded : encodeEscaped? path = some bytes) (free : Codepoint.char '\\' ∉ path)
    (unencoded : encodeEscaped? other = none) : display path ≠ display other := by
  intro same
  obtain ⟨index, member⟩ := exists_surrogate unencoded
  have marked := surrogateStart_isInfix member
  rw [← display_of_none unencoded, ← same, display_of_bytes encoded] at marked
  have spelled := spelled_decodeUtf8 text_backslash bytes
  exact spelled.not_surrogateStart (not_mem_encodeEscaped? encoded free) marked

/-- Two paths without a backslash are shown alike only if they stand for the same bytes. -/
theorem display_eq_iff (free : Codepoint.char '\\' ∉ path) (freely : Codepoint.char '\\' ∉ other) :
    display path = display other ↔ path = other ∨
      ∃ bytes, encodeEscaped? path = some bytes ∧ encodeEscaped? other = some bytes := by
  constructor
  · intro same
    cases encoded : encodeEscaped? path with
    | none =>
      cases again : encodeEscaped? other with
      | none =>
        rw [display_of_none encoded, display_of_none again] at same
        exact .inl (backslashSurrogates_inj free freely same)
      | some others => exact absurd same.symm (display_ne again freely encoded)
    | some bytes =>
      cases again : encodeEscaped? other with
      | none => exact absurd same (display_ne encoded free again)
      | some others =>
        rw [display_of_bytes encoded, display_of_bytes again] at same
        have equal := decodeUtf8_backslash_inj (not_mem_encodeEscaped? encoded free)
          (not_mem_encodeEscaped? again freely) same
        exact .inr ⟨bytes, rfl, equal ▸ rfl⟩
  · rintro (rfl | ⟨bytes, encoded, again⟩)
    · rfl
    · rw [display_of_bytes encoded, display_of_bytes again]

end Text

end Deadwood
