import Mathlib.Data.List.Infix
import Deadwood.Text.Encoding

/-!
# Laws of UTF-8

The bytes of a character are a row of the table of UTF-8, and the decoder finds
a character exactly where the bytes begin with one.  Elsewhere it takes a stretch
of bytes at none of which a character begins.  So decoding undoes encoding, and
what becomes of bytes that are no text can be said byte by byte, without the
stretches.
-/

namespace Deadwood

namespace Encoding

variable {first second : UInt8} {bytes rest : Bytes} {c : Char} {n : Nat}

/-! ## The table -/

theorem isTail_iff {b : UInt8} : isTail b = true ↔ 0x80 ≤ b.toNat ∧ b.toNat < 0xC0 := by
  simp only [isTail, Bool.and_eq_true, decide_eq_true_eq, UInt8.le_iff_toNat_le, UInt8.reduceToNat]
  omega

theorem tailValue_lt {b : UInt8} (tail : isTail b = true) : tailValue b < 64 := by
  rw [isTail_iff] at tail
  unfold tailValue
  omega

theorem isSecond_iff : isSecond first second = true ↔ isTail second = true ∧
    (first.toNat = 0xE0 → 32 ≤ tailValue second) ∧ (first.toNat = 0xED → tailValue second < 32) ∧
    (first.toNat = 0xF0 → 16 ≤ tailValue second) ∧ (first.toNat = 0xF4 → tailValue second < 16) := by
  simp only [isSecond, Bool.and_eq_true, Bool.or_eq_true, decide_eq_true_eq, UInt8.le_iff_toNat_le,
    UInt8.lt_iff_toNat_lt, bne_iff_ne, ne_eq, ← UInt8.toNat_inj, UInt8.reduceToNat, isTail_iff]
  unfold tailValue
  omega

/-- The table of UTF-8: the bytes of a character and its number. -/
inductive Row : Bytes → Nat → Prop where
  | one {first : UInt8} (low : first.toNat < 0x80) : Row [first] first.toNat
  | two {first second : UInt8} (high : 0xC2 ≤ first.toNat) (low : first.toNat < 0xE0)
      (follows : isSecond first second = true) :
      Row [first, second] ((first.toNat - 0xC0) * 64 + tailValue second)
  | three {first second third : UInt8} (high : 0xE0 ≤ first.toNat) (low : first.toNat < 0xF0)
      (follows : isSecond first second = true) (tail : isTail third = true) :
      Row [first, second, third] (((first.toNat - 0xE0) * 64 + tailValue second) * 64 + tailValue third)
  | four {first second third fourth : UInt8} (high : 0xF0 ≤ first.toNat) (low : first.toNat ≤ 0xF4)
      (follows : isSecond first second = true) (tail : isTail third = true) (last : isTail fourth = true) :
      Row [first, second, third, fourth]
        ((((first.toNat - 0xF0) * 64 + tailValue second) * 64 + tailValue third) * 64 + tailValue fourth)

theorem toNat_scalar (c : Char) : c.toNat < 0xD800 ∨ 0xDFFF < c.toNat ∧ c.toNat < 0x110000 := c.valid

/-- The encoding is the standard one. -/
theorem utf8Char_eq_utf8EncodeChar (c : Char) : utf8Char c = String.utf8EncodeChar c := by
  have top := toNat_scalar c
  simp only [utf8Char, String.utf8EncodeChar, show c.val.toNat = c.toNat from rfl]
  generalize c.toNat = n at top
  have last : n / Nat.pow 64 0 = n := Nat.div_one n
  by_cases one : n < 0x80
  · rw [if_pos one, if_pos (show n ≤ 0x7F by omega)]
  rw [if_neg one, if_neg (show ¬ n ≤ 0x7F by omega)]
  by_cases two : n < 0x800
  · rw [if_pos two, if_pos (show n ≤ 0x7FF by omega), Nat.mod_eq_of_lt (show n / 64 < 32 by omega), last,
      Nat.add_comm 0xC0, Nat.add_comm 0x80]
  rw [if_neg two, if_neg (show ¬ n ≤ 0x7FF by omega)]
  by_cases three : n < 0x10000
  · rw [if_pos three, if_pos (show n ≤ 0xFFFF by omega), Nat.mod_eq_of_lt (show n / 0x1000 < 16 by omega),
      last, Nat.add_comm 0xE0, Nat.add_comm 0x80, Nat.add_comm 0x80]
  · rw [if_neg three, if_neg (show ¬ n ≤ 0xFFFF by omega),
      Nat.mod_eq_of_lt (show n / 0x40000 < 8 by omega), last, Nat.add_comm 0xF0, Nat.add_comm 0x80,
      Nat.add_comm 0x80, Nat.add_comm 0x80]

theorem utf8_eq (cs : List Char) : utf8 cs = cs.flatMap String.utf8EncodeChar := by
  rw [utf8, funext utf8Char_eq_utf8EncodeChar]

theorem utf8_append (front back : List Char) : utf8 (front ++ back) = utf8 front ++ utf8 back := List.flatMap_append

theorem toNat_ofNat_scalar (scalar : n < 0xD800 ∨ 0xDFFF < n ∧ n < 0x110000) :
    (Char.ofNat n).toNat = n := by
  rw [Char.ofNat, dif_pos scalar]
  exact UInt32.toNat_ofNatLT ..

theorem exists_byte (small : n < 0x100) : ∃ b : UInt8, UInt8.ofNat n = b ∧ b.toNat = n :=
  ⟨_, rfl, UInt8.toNat_ofNat_of_lt small⟩

theorem exists_tail (n : Nat) :
    ∃ b : UInt8, UInt8.ofNat (0x80 + n % 64) = b ∧ isTail b = true ∧ tailValue b = n % 64 := by
  obtain ⟨b, same, value⟩ := exists_byte (n := 0x80 + n % 64) (by omega)
  refine ⟨b, same, ?_, ?_⟩
  · rw [isTail_iff]
    omega
  · unfold tailValue
    omega

theorem ofNat_tailValue {b : UInt8} (tail : isTail b = true) : UInt8.ofNat (0x80 + tailValue b) = b := by
  rw [isTail_iff] at tail
  rw [← UInt8.toNat_inj, UInt8.toNat_ofNat']
  unfold tailValue
  omega

theorem Row.of_eq {m : Nat} (row : Row bytes m) (same : m = n) : Row bytes n := same ▸ row

/-- What the encoder writes is in the table. -/
theorem row_utf8Char (c : Char) : Row (utf8Char c) c.toNat := by
  have scalar := toNat_scalar c
  obtain ⟨last, lasts, lastTail, lastValue⟩ := exists_tail c.toNat
  obtain ⟨middle, middles, middleTail, middleValue⟩ := exists_tail (c.toNat / 64)
  obtain ⟨next, nexts, nextTail, nextValue⟩ := exists_tail (c.toNat / 0x1000)
  simp only [utf8Char, Nat.pow_eq, Nat.reducePow, Nat.div_one, lasts, middles, nexts]
  split
  case isTrue one =>
    obtain ⟨lead, leads, leadNat⟩ := exists_byte (n := c.toNat) (by omega)
    rw [leads]
    exact (Row.one (by omega)).of_eq leadNat
  split
  case isTrue two =>
    obtain ⟨lead, leads, leadNat⟩ := exists_byte (n := 0xC0 + c.toNat / 64) (by omega)
    have follows : isSecond lead last = true := isSecond_iff.mpr ⟨lastTail, by omega⟩
    rw [leads]
    exact (Row.two (by omega) (by omega) follows).of_eq (by omega)
  split
  case isTrue three =>
    obtain ⟨lead, leads, leadNat⟩ := exists_byte (n := 0xE0 + c.toNat / 0x1000) (by omega)
    have follows : isSecond lead middle = true := isSecond_iff.mpr ⟨middleTail, by omega⟩
    rw [leads]
    exact (Row.three (by omega) (by omega) follows lastTail).of_eq (by omega)
  case isFalse three =>
    obtain ⟨lead, leads, leadNat⟩ := exists_byte (n := 0xF0 + c.toNat / 0x40000) (by omega)
    have follows : isSecond lead next = true := isSecond_iff.mpr ⟨nextTail, by omega⟩
    rw [leads]
    exact (Row.four (by omega) (by omega) follows middleTail lastTail).of_eq (by omega)

/-- A row of the table is what the encoder writes. -/
theorem Row.utf8Char (row : Row bytes n) : utf8Char (Char.ofNat n) = bytes := by
  cases row with
  | @one first low =>
    rw [Encoding.utf8Char, toNat_ofNat_scalar (by omega)]
    simp [low]
  | @two first second high low follows =>
    obtain ⟨tail, -⟩ := isSecond_iff.mp follows
    have small := tailValue_lt tail
    generalize value : (first.toNat - 0xC0) * 64 + tailValue second = n
    have lead : 0xC0 + n / 64 = first.toNat := by omega
    have last : n % 64 = tailValue second := by omega
    rw [Encoding.utf8Char, toNat_ofNat_scalar (by omega), if_neg (by omega), if_pos (by omega)]
    simp only [Nat.pow_eq, Nat.reducePow, Nat.div_one, lead, last, UInt8.ofNat_toNat,
      ofNat_tailValue tail]
  | @three first second third high low follows tail =>
    -- The ranges of the second byte keep out overlong rows and surrogates.
    obtain ⟨inner, overlong, surrogate, -⟩ := isSecond_iff.mp follows
    have small := tailValue_lt tail
    have smaller := tailValue_lt inner
    generalize value : ((first.toNat - 0xE0) * 64 + tailValue second) * 64 + tailValue third = n
    have lead : 0xE0 + n / 0x1000 = first.toNat := by omega
    have middle : n / 64 % 64 = tailValue second := by omega
    have last : n % 64 = tailValue third := by omega
    rw [Encoding.utf8Char, toNat_ofNat_scalar (by omega), if_neg (by omega), if_neg (by omega),
      if_pos (by omega)]
    simp only [Nat.pow_eq, Nat.reducePow, Nat.div_one, lead, middle, last, UInt8.ofNat_toNat,
      ofNat_tailValue inner, ofNat_tailValue tail]
  | @four first second third fourth high low follows tail final =>
    obtain ⟨inner, -, -, overlong, beyond⟩ := isSecond_iff.mp follows
    have small := tailValue_lt final
    have smaller := tailValue_lt tail
    have smallest := tailValue_lt inner
    generalize value : (((first.toNat - 0xF0) * 64 + tailValue second) * 64 + tailValue third) * 64 +
      tailValue fourth = n
    have lead : 0xF0 + n / 0x40000 = first.toNat := by omega
    have next : n / 0x1000 % 64 = tailValue second := by omega
    have middle : n / 64 % 64 = tailValue third := by omega
    have last : n % 64 = tailValue fourth := by omega
    rw [Encoding.utf8Char, toNat_ofNat_scalar (by omega), if_neg (by omega), if_neg (by omega),
      if_neg (by omega)]
    simp only [Nat.pow_eq, Nat.reducePow, Nat.div_one, lead, next, middle, last, UInt8.ofNat_toNat,
      ofNat_tailValue inner, ofNat_tailValue tail, ofNat_tailValue final]

/-- The decoder reads a row of the table, whatever follows it. -/
theorem Row.utf8Piece {stretch : Bytes} (row : Row (first :: stretch) n) (rest : Bytes) :
    utf8Piece first (stretch ++ rest) = (.char (Char.ofNat n), stretch.length + 1) := by
  cases row with
  | one low => cases rest <;> simp [Encoding.utf8Piece, UInt8.lt_iff_toNat_lt, low]
  | two high low follows =>
    have notAscii : ¬ first.toNat < 0x80 := by omega
    have below : ¬ 0xF4 < first.toNat := by omega
    simp [Encoding.utf8Piece, UInt8.lt_iff_toNat_lt, notAscii, Nat.not_lt.mpr high, below, follows, low]
  | three high low follows tail =>
    have notAscii : ¬ first.toNat < 0x80 := by omega
    have above : ¬ first.toNat < 0xC2 := by omega
    have below : ¬ 0xF4 < first.toNat := by omega
    simp [Encoding.utf8Piece, UInt8.lt_iff_toNat_lt, notAscii, above, below, follows,
      Nat.not_lt.mpr high, low, tail]
  | four high low follows tail final =>
    have notAscii : ¬ first.toNat < 0x80 := by omega
    have above : ¬ first.toNat < 0xC2 := by omega
    have longer : ¬ first.toNat < 0xE0 := by omega
    simp [Encoding.utf8Piece, UInt8.lt_iff_toNat_lt, notAscii, above, Nat.not_lt.mpr low, follows, longer,
      Nat.not_lt.mpr high, tail, final]

/-! ## The front of bytes -/

theorem utf8Char_ne_nil (c : Char) : utf8Char c ≠ [] := by
  intro empty
  have row := row_utf8Char c
  rw [empty] at row
  cases row

/-- Where bytes begin with a character, the decoder finds it. -/
theorem utf8Piece_of_begins (begins : utf8Char c <+: first :: rest) :
    utf8Piece first rest = (.char c, (utf8Char c).length) := by
  obtain ⟨more, split⟩ := begins
  have row := row_utf8Char c
  cases written : utf8Char c with
  | nil => exact absurd written (utf8Char_ne_nil c)
  | cons lead stretch =>
    rw [written] at row split
    obtain ⟨rfl, rfl⟩ := List.cons_eq_cons.mp split
    rw [List.append_eq, row.utf8Piece more, Char.ofNat_toNat, List.length_cons]

/-- What the decoder may find at the front of bytes, with its width: a character that the bytes begin
with, or a byte that starts none with bytes that could only go on with one. -/
inductive Front (first : UInt8) (rest : Bytes) : Piece × Nat → Prop where
  | char {c : Char} (begins : utf8Char c <+: first :: rest) :
      Front first rest (.char c, (utf8Char c).length)
  | bad {stretch : Bytes} {reason : Reason} (begins : stretch <+: rest)
      (tails : ∀ b ∈ stretch, isTail b = true) :
      Front first rest (.bad (first :: stretch) reason, stretch.length + 1)

theorem Row.front {more : Bytes} (row : Row bytes n) (split : bytes ++ more = first :: rest) :
    Front first rest (.char (Char.ofNat n), bytes.length) := by
  rw [← row.utf8Char]
  apply Front.char
  rw [row.utf8Char, ← split]
  exact List.prefix_append bytes more

theorem front_utf8Piece (first : UInt8) (rest : Bytes) : Front first rest (utf8Piece first rest) := by
  -- Each case hands on what the byte it looked at is known to be.
  unfold utf8Piece
  dsimp only
  split
  case isTrue low => exact (Row.one (UInt8.lt_iff_toNat_lt.mp low)).front rfl
  case isFalse =>
  split
  case isTrue => exact .bad List.nil_prefix (List.forall_mem_nil _)
  case isFalse leads =>
  simp only [Bool.or_eq_true, decide_eq_true_eq, UInt8.lt_iff_toNat_lt, UInt8.reduceToNat, not_or,
    Nat.not_lt] at leads
  split
  case h_1 => exact .bad List.nil_prefix (List.forall_mem_nil _)
  case h_2 second rest =>
  split
  case isTrue => exact .bad List.nil_prefix (List.forall_mem_nil _)
  case isFalse seconds =>
  have follows : isSecond first second = true := by simpa using seconds
  have inner := (isSecond_iff.mp follows).1
  split
  case isTrue two => exact (Row.two leads.1 (UInt8.lt_iff_toNat_lt.mp two) follows).front rfl
  case isFalse longer =>
  have two : 0xE0 ≤ first.toNat := by simpa [UInt8.lt_iff_toNat_lt] using longer
  have pair : ∀ b ∈ [second], isTail b = true := by simpa using inner
  split
  case h_1 => exact .bad List.prefix_rfl pair
  case h_2 third rest =>
  split
  case isTrue => exact .bad (List.prefix_append [second] _) pair
  case isFalse thirds =>
  have tail : isTail third = true := by simpa using thirds
  split
  case isTrue three => exact (Row.three two (UInt8.lt_iff_toNat_lt.mp three) follows tail).front rfl
  case isFalse longest =>
  have three : 0xF0 ≤ first.toNat := by simpa [UInt8.lt_iff_toNat_lt] using longest
  have triple : ∀ b ∈ [second, third], isTail b = true := by simp [inner, tail]
  split
  case h_1 => exact .bad List.prefix_rfl triple
  case h_2 fourth rest =>
  split
  case isTrue => exact .bad (List.prefix_append [second, third] _) triple
  case isFalse fourths => exact (Row.four three leads.2 follows tail (by simpa using fourths)).front rfl

/-- No character begins with a byte that continues one. -/
theorem not_begins_of_isTail (tail : isTail first = true) : ¬ utf8Char c <+: first :: rest := by
  intro begins
  rw [isTail_iff] at tail
  have found := utf8Piece_of_begins begins
  have notAscii : ¬ first.toNat < 0x80 := by omega
  have below : first.toNat < 0xC2 := by omega
  cases rest <;> simp [utf8Piece, UInt8.lt_iff_toNat_lt, notAscii, below] at found

/-! ## The pieces of bytes -/

theorem piecesFrom_eq (scheme : Scheme) (found : List Piece) (skip : Nat) (bytes : Bytes) :
    piecesFrom scheme found skip bytes = found.reverse ++ pieces scheme (bytes.drop skip) := by
  induction bytes generalizing found skip with
  | nil => cases skip <;> simp [pieces, piecesFrom]
  | cons first rest ih =>
    cases skip with
    | succ skip => rw [piecesFrom, ih, List.drop_succ_cons]
    | zero => simp only [List.drop_zero, pieces, piecesFrom, ih, List.reverse_cons, List.reverse_nil,
        List.append_assoc, List.nil_append]

theorem pieces_cons (scheme : Scheme) (first : UInt8) (rest : Bytes) :
    pieces scheme (first :: rest) = (scheme.piece first rest).1 ::
      pieces scheme (rest.drop ((scheme.piece first rest).2 - 1)) := by
  simp only [pieces, piecesFrom, piecesFrom_eq _ [_], List.reverse_singleton, List.singleton_append]

/-- Bytes cut into characters and stretches at none of whose bytes a character begins. -/
inductive Cut : Bytes → List Piece → Prop where
  | nil : Cut [] []
  | char (c : Char) {rest : Bytes} {found : List Piece} (later : Cut rest found) :
      Cut (utf8Char c ++ rest) (.char c :: found)
  | bad {first : UInt8} {stretch rest : Bytes} {reason : Reason} {found : List Piece}
      (stray : ∀ c, ¬ utf8Char c <+: first :: (stretch ++ rest))
      (tails : ∀ b ∈ stretch, isTail b = true) (later : Cut rest found) :
      Cut (first :: stretch ++ rest) (.bad (first :: stretch) reason :: found)

theorem pieces_utf8Char (c : Char) (rest : Bytes) :
    pieces .utf8 (utf8Char c ++ rest) = .char c :: pieces .utf8 rest := by
  cases written : utf8Char c with
  | nil => exact absurd written (utf8Char_ne_nil c)
  | cons lead stretch =>
    have begins : utf8Char c <+: lead :: (stretch ++ rest) := written ▸ List.prefix_append _ rest
    rw [List.cons_append, pieces_cons, Scheme.piece, utf8Piece_of_begins begins, written,
      List.length_cons, Nat.add_sub_cancel, List.drop_left]

theorem cut_pieces (bytes : Bytes) : Cut bytes (pieces .utf8 bytes) := by
  induction length : bytes.length using Nat.strong_induction_on generalizing bytes with
  | _ size ih =>
    cases bytes with
    | nil => exact .nil
    | cons first rest =>
      have front := front_utf8Piece first rest
      generalize outcome : utf8Piece first rest = found at front
      cases front with
      | @char c begins =>
        obtain ⟨more, split⟩ := begins
        have shorter : more.length < size := by
          have nonempty := List.length_pos_iff.mpr (utf8Char_ne_nil c)
          rw [← length, ← split, List.length_append]
          omega
        rw [← split, pieces_utf8Char]
        exact .char c (ih _ shorter more rfl)
      | @bad stretch reason begins tails =>
        obtain ⟨more, rfl⟩ := begins
        have shorter : more.length < size := by
          rw [← length, List.length_cons, List.length_append]
          omega
        have stray : ∀ c, ¬ utf8Char c <+: first :: (stretch ++ more) := by
          intro c begins
          rw [utf8Piece_of_begins begins] at outcome
          cases outcome
        rw [pieces_cons, Scheme.piece, outcome, Nat.add_sub_cancel, List.drop_left]
        exact .bad stray tails (ih _ shorter more rfl)

/-! ## Decoding -/

variable {policy : Policy} {mark : UInt8 → Text}

/-- The text of a piece. -/
def Policy.render (policy : Policy) : Piece → Text
  | .char c => [Codepoint.char c]
  | .bad bytes _ => policy.text bytes

theorem decodeUtf8_eq (policy : Policy) (bytes : Bytes) :
    decodeUtf8 policy bytes = (pieces .utf8 bytes).flatMap policy.render := rfl

/-- Bytes that are not refused are decoded. -/
theorem decode_utf8 (lenient : policy ≠ .strict) (bytes : Bytes) :
    decode .utf8 policy bytes = .ok (decodeUtf8 policy bytes) := by
  rw [decode, if_neg lenient]
  rfl

theorem pieces_utf8 (cs : List Char) : pieces .utf8 (utf8 cs) = cs.map Piece.char := by
  induction cs with
  | nil => rfl
  | cons c cs ih => rw [utf8, List.flatMap_cons, pieces_utf8Char, ← utf8, ih, List.map_cons]

/-- Decoding undoes encoding under every policy. -/
theorem decodeUtf8_utf8 (policy : Policy) (cs : List Char) :
    decodeUtf8 policy (utf8 cs) = Text.ofChars cs := by
  rw [decodeUtf8_eq, pieces_utf8, List.flatMap_map]
  exact List.flatMap_pure_eq_map _ cs

theorem firstBad_chars (scheme : Scheme) (position : Nat) (cs : List Char) :
    firstBad scheme position (cs.map Piece.char) = none := by
  induction cs generalizing position with
  | nil => rfl
  | cons c cs ih => exact ih _

theorem decode_strict_utf8 (cs : List Char) :
    decode .utf8 .strict (utf8 cs) = .ok (Text.ofChars cs) := by
  rw [decode, pieces_utf8, if_pos rfl, firstBad_chars, ← pieces_utf8 cs]
  exact congrArg Except.ok (decodeUtf8_utf8 .strict cs)

/-- The text that bytes spell, with a mark for every byte at which no character begins.  Nothing is said
of stretches. -/
inductive Spelled (mark : UInt8 → Text) : Bytes → Text → Prop where
  | nil : Spelled mark [] []
  | char (c : Char) {rest : Bytes} {text : Text} (later : Spelled mark rest text) :
      Spelled mark (utf8Char c ++ rest) (Codepoint.char c :: text)
  | stray {b : UInt8} {rest : Bytes} {text : Text} (stray : ∀ c, ¬ utf8Char c <+: b :: rest)
      (later : Spelled mark rest text) : Spelled mark (b :: rest) (mark b ++ text)

theorem Spelled.tails {stretch : Bytes} {text : Text} (tails : ∀ b ∈ stretch, isTail b = true)
    (later : Spelled mark rest text) : Spelled mark (stretch ++ rest) (stretch.flatMap mark ++ text) := by
  induction stretch with
  | nil => exact later
  | cons b stretch ih =>
    obtain ⟨tail, tails⟩ := List.forall_mem_cons.mp tails
    rw [List.flatMap_cons, List.append_assoc]
    exact .stray (fun c => not_begins_of_isTail tail) (ih tails)

/-- A policy that marks every byte of a stretch spells the bytes with these marks. -/
theorem Cut.spelled {found : List Piece} (cut : Cut bytes found)
    (marks : ∀ bytes, policy.text bytes = bytes.flatMap mark) :
    Spelled mark bytes (found.flatMap policy.render) := by
  induction cut with
  | nil => exact .nil
  | char c later ih => exact .char c ih
  | @bad first stretch rest reason found stray tails later ih =>
    rw [List.flatMap_cons, Policy.render, marks, List.flatMap_cons, List.append_assoc]
    exact .stray stray (ih.tails tails)

theorem spelled_decodeUtf8 (marks : ∀ bytes, policy.text bytes = bytes.flatMap mark) (bytes : Bytes) :
    Spelled mark bytes (decodeUtf8 policy bytes) :=
  (cut_pieces bytes).spelled marks

/-- The bytes tell with which character they begin. -/
theorem utf8Char_append_inj {d : Char} {more : Bytes} (same : utf8Char c ++ rest = utf8Char d ++ more) :
    c = d ∧ rest = more := by
  have cut := congrArg (pieces .utf8) same
  rw [pieces_utf8Char, pieces_utf8Char, List.cons.injEq, Piece.char.injEq] at cut
  obtain ⟨rfl, -⟩ := cut
  exact ⟨rfl, List.append_cancel_left same⟩

theorem Spelled.cases {text : Text} (spelled : Spelled mark bytes text) :
    (bytes = [] ∧ text = []) ∨
    (∃ c rest later, bytes = utf8Char c ++ rest ∧ text = Codepoint.char c :: later ∧
      Spelled mark rest later) ∨
    ∃ b rest later, bytes = b :: rest ∧ (∀ c, ¬ utf8Char c <+: b :: rest) ∧ text = mark b ++ later ∧
      Spelled mark rest later := by
  cases spelled with
  | nil => exact .inl ⟨rfl, rfl⟩
  | char c later => exact .inr (.inl ⟨c, _, _, rfl, rfl, later⟩)
  | stray stray later => exact .inr (.inr ⟨_, _, _, rfl, stray, rfl, later⟩)

/-- Bytes spell one text. -/
theorem Spelled.text_eq {text other : Text} (spelled : Spelled mark bytes text)
    (again : Spelled mark bytes other) : text = other := by
  induction spelled generalizing other with
  | nil =>
    rcases again.cases with ⟨-, rfl⟩ | ⟨c, rest, later, empty, -⟩ | ⟨b, rest, later, empty, -⟩
    · rfl
    · exact absurd (List.append_eq_nil_iff.mp empty.symm).1 (utf8Char_ne_nil c)
    · cases empty
  | char c later ih =>
    rcases again.cases with ⟨empty, -⟩ | ⟨d, rest, text, same, rfl, later⟩ | ⟨b, rest, text, same, stray, -⟩
    · exact absurd (List.append_eq_nil_iff.mp empty).1 (utf8Char_ne_nil c)
    · obtain ⟨rfl, rfl⟩ := utf8Char_append_inj same
      rw [ih later]
    · exact absurd (same ▸ List.prefix_append _ _) (stray c)
  | stray stray later ih =>
    rcases again.cases with ⟨empty, -⟩ | ⟨d, rest, text, same, -⟩ | ⟨b, rest, text, same, -, rfl, later⟩
    · cases empty
    · exact absurd (same ▸ List.prefix_append _ _) (stray d)
    · cases same
      rw [ih later]

theorem spelled_iff {text : Text} (marks : ∀ bytes, policy.text bytes = bytes.flatMap mark) :
    Spelled mark bytes text ↔ text = decodeUtf8 policy bytes := by
  constructor
  · intro spelled
    exact spelled.text_eq (spelled_decodeUtf8 marks bytes)
  · rintro rfl
    exact spelled_decodeUtf8 marks bytes

end Encoding

end Deadwood
