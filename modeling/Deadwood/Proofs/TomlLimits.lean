import Deadwood.Proofs.Limits
import Deadwood.Proofs.Text
import Deadwood.Toml.Reader

/-!
# Limits of reading TOML

Reading a document gives up on a value only where brackets are nested too
deeply or a number is too long, and never because it ran out of steps.  Keys,
strings, blanks and comments can be malformed, but they have no limits.
-/

namespace Deadwood.Toml

variable {depth : Nat} {place : Place} {α : Type} {rest : α → Text} {text : Text}

/-- An array counts two, a table in braces three, and underscores may stand between digits. -/
def limits : Limits ReadError where
  tooDeep := .tooDeep
  numberTooLong := .numberTooLong
  apart := nofun
  cost c := if c = Codepoint.char '[' then 2 else if c = Codepoint.char '\x7b' then 3 else 0
  isNumeral
    | .char c => c.isDigit || c == '_'
    | .surrogate _ => false

theorem keeps_malformed {message : Text} {position : Nat} :
    limits.Keeps depth text rest (.error (.malformed message position)) :=
  .error nofun nofun

/-! ## Places -/

theorem Place.skip_suffix (place : Place) (n : Nat) : (place.skip n).rest <:+ place.rest :=
  List.drop_suffix n place.rest

theorem Place.skipWhile_suffix (place : Place) (test : Codepoint → Bool) :
    (place.skipWhile test).rest <:+ place.rest :=
  place.skip_suffix _

theorem Place.rest_of_starts {c : Codepoint} (seen : Text.startsWith place.rest [c] = true) :
    place.rest = c :: (place.skip 1).rest := by
  rw [Text.startsWith_singleton] at seen
  simp only [skip]
  cases split : place.rest with
  | nil => simp [split] at seen
  | cons d after =>
    rw [split, List.head?_cons, Option.some.injEq] at seen
    simp [seen]

theorem Place.length_lt {c : Codepoint} {next : Place} (seen : Text.startsWith place.rest [c] = true)
    (ends : next.rest <:+ (place.skip 1).rest) : next.rest.length < place.rest.length := by
  have shorter := ends.length_le
  rw [rest_of_starts seen, List.length_cons]
  omega

/-! ## Blanks, strings and keys -/

theorem keeps_skipUntil (illegal : Codepoint → Bool) (needed : Bool) (stop : Text) (place : Place) :
    limits.Keeps depth place.rest (·.rest) (skipUntil illegal needed stop place) := by
  simp only [skipUntil]
  split
  · split
    · exact keeps_malformed
    · exact .ok (place.skip_suffix _)
  · split
    · exact keeps_malformed
    · split
      · exact keeps_malformed
      · exact .ok (place.skip_suffix _)

theorem keeps_skipComment (place : Place) :
    limits.Keeps depth place.rest (·.rest) (skipComment place) := by
  simp only [skipComment]
  split
  · exact (keeps_skipUntil _ _ _ _).mono (place.skip_suffix 1)
  · exact .ok (List.suffix_refl _)

theorem keeps_skipFiller (bound : Nat) (place : Place) :
    limits.Keeps depth place.rest (·.rest) (skipFiller bound place) := by
  induction bound generalizing place with
  | zero => exact .ok (List.suffix_refl _)
  | succ bound ih =>
    have first : limits.Keeps depth place.rest (·.rest)
        (skipComment (place.skipWhile isSpaceOrLine)) :=
      (keeps_skipComment _).mono (place.skipWhile_suffix _)
    simp only [skipFiller]
    cases passed : skipComment (place.skipWhile isSpaceOrLine) with
    | error fault =>
      rw [passed] at first
      exact first
    | ok next =>
      simp only [bind, Except.bind]
      split
      · exact .ok (List.suffix_refl _)
      · exact (ih next).mono (first.goesOn next passed)

theorem keeps_hexEscape (place : Place) (width : Nat) :
    limits.Keeps depth place.rest (·.2.rest) (hexEscape place width) := by
  simp only [hexEscape]
  split
  · exact keeps_malformed
  · split
    · exact .ok (place.skip_suffix width)
    · exact keeps_malformed

theorem keeps_readEscape (several : Bool) (place : Place) :
    limits.Keeps depth place.rest (·.2.rest) (readEscape several place) := by
  have after := place.skip_suffix 2
  simp only [readEscape]
  split
  · exact keeps_malformed
  · split
    · split
      · exact .ok ((Place.skipWhile_suffix _ _).trans after)
      · have blanks := ((place.skip 2).skipWhile_suffix isSpace).trans after
        split
        · exact .ok blanks
        · split
          · exact .ok (((Place.skipWhile_suffix _ _).trans (Place.skip_suffix _ 1)).trans blanks)
          · exact keeps_malformed
    · split
      · exact (keeps_hexEscape _ 4).mono after
      · split
        · exact (keeps_hexEscape _ 8).mono after
        · split
          · exact .ok after
          · exact keeps_malformed

theorem keeps_readBasic (several : Bool) (bound : Nat) (found : Text) (place : Place) :
    limits.Keeps depth place.rest (·.2.rest) (readBasic several bound found place) := by
  induction bound generalizing found place with
  | zero => exact keeps_malformed
  | succ bound ih =>
    simp only [readBasic]
    split
    · exact keeps_malformed
    · split
      · split
        · exact .ok (place.skip_suffix 1)
        · split
          · exact .ok (place.skip_suffix 3)
          · exact (ih _ _).mono (place.skip_suffix 1)
      · split
        · exact (keeps_readEscape several place).bind fun escape _ => ih _ _
        · generalize (if several = true then _ else _) = illegal
          split
          · exact keeps_malformed
          · exact (ih _ _).mono (place.skip_suffix 1)

theorem keeps_readBasicLine (place : Place) :
    limits.Keeps depth place.rest (·.2.rest) (readBasicLine place) :=
  (keeps_readBasic _ _ _ _).mono (place.skip_suffix 1)

theorem keeps_readLiteralLine (place : Place) :
    limits.Keeps depth place.rest (·.2.rest) (readLiteralLine place) :=
  ((keeps_skipUntil _ _ _ _).mono (place.skip_suffix 1)).bind fun stop _ => .ok (stop.skip_suffix 1)

theorem extraQuotes_suffix (quote : String) (text : Text) (place : Place) :
    (extraQuotes quote text place).2.rest <:+ place.rest := by
  simp only [extraQuotes]
  split
  · exact List.suffix_refl _
  · split
    · exact place.skip_suffix 1
    · exact (Place.skip_suffix _ 1).trans (place.skip_suffix 1)

theorem keeps_readLines (literal : Bool) (place : Place) :
    limits.Keeps depth place.rest (·.2.rest) (readLines literal place) := by
  have start : (if (place.skip 3).sees "\n" then (place.skip 3).skip 1 else place.skip 3).rest <:+
      place.rest := by
    split
    · exact (Place.skip_suffix _ 1).trans (place.skip_suffix 3)
    · exact place.skip_suffix 3
  simp only [readLines]
  split
  · refine ((keeps_skipUntil _ _ _ _).mono start).bind fun stop _ => .ok ?_
    exact (extraQuotes_suffix _ _ _).trans (stop.skip_suffix 3)
  · exact ((keeps_readBasic _ _ _ _).mono start).bind fun read _ => .ok (extraQuotes_suffix _ _ _)

theorem keeps_readKeyPart (place : Place) :
    limits.Keeps depth place.rest (·.2.rest) (readKeyPart place) := by
  simp only [readKeyPart]
  split
  · exact keeps_malformed
  · split
    · exact .ok (place.skip_suffix _)
    · split
      · exact keeps_readLiteralLine place
      · split
        · exact keeps_readBasicLine place
        · exact keeps_malformed

theorem keeps_readKeyRest (bound : Nat) (key : Key) (place : Place) :
    limits.Keeps depth place.rest (·.2.rest) (readKeyRest bound key place) := by
  induction bound generalizing key place with
  | zero => exact .ok (List.suffix_refl _)
  | succ bound ih =>
    simp only [readKeyRest]
    split
    · exact .ok (List.suffix_refl _)
    · refine ((keeps_readKeyPart _).mono
        ((Place.skipWhile_suffix _ _).trans (place.skip_suffix 1))).bind fun part _ => ?_
      exact (ih _ _).mono (Place.skipWhile_suffix _ _)

theorem keeps_readKey (place : Place) :
    limits.Keeps depth place.rest (·.2.rest) (readKey place) :=
  (keeps_readKeyPart place).bind fun _ _ =>
    (keeps_readKeyRest _ _ _).mono (Place.skipWhile_suffix _ _)

/-! ## Numbers -/

/-- Digits are read from a run of digits and underscores, at least as long as they are many. -/
theorem digitsWith_run (text : Text) : ∃ run, run <+: text ∧
    (digitsWith Char.isDigit text).1.length ≤ run.length ∧ ∀ c ∈ run, limits.isNumeral c = true := by
  fun_induction digitsWith Char.isDigit text with
  | case1 c d digit underscore e tail _ more width read ih =>
    obtain ⟨run, starts, length, numeral⟩ := ih
    refine ⟨.char c :: .char d :: run, by simpa using starts, by simpa using Nat.le_succ_of_le length, ?_⟩
    simp only [List.mem_cons, forall_eq_or_imp]
    exact ⟨by simp [limits, digit], by simp [limits, underscore], numeral⟩
  | case4 c d rest digit _ more width read ih =>
    obtain ⟨run, starts, length, numeral⟩ := ih
    rw [read] at length
    refine ⟨.char c :: run, by simpa using starts, by simpa using length, ?_⟩
    simp only [List.mem_cons, forall_eq_or_imp]
    exact ⟨by simp [limits, digit], numeral⟩
  | case2 c d digit | case3 c d rest digit | case6 c tail _ digit =>
    exact ⟨[.char c], by simp, by simp, by simp [limits, digit]⟩
  | case5 | case7 | case8 => exact ⟨[], by simp, by simp, by simp⟩

/-- Too many digits before a point are a run in the text. -/
theorem hasLongNumber_whole {whole : Text} {width : Nat}
    (read : (if Text.startsWith text "0" then (text.take 1, 1) else digitsWith Char.isDigit text) =
      (whole, width)) (long : Numeral.digitLimit < whole.length) : limits.HasLongNumber text := by
  split at read
  · cases read
    have single := List.length_take_le 1 text
    exact absurd long (Nat.not_lt.mpr (single.trans (by decide)))
  · obtain ⟨run, starts, length, numeral⟩ := digitsWith_run text
    rw [read] at length
    exact ⟨run, starts.isInfix, long.trans_le length, numeral⟩

/-- A decimal number is given up only if it is too long. -/
theorem decimalNumber?_error {fault : ReadError} {width : Nat}
    (failed : decimalNumber? text = some (.error fault, width)) :
    fault = .numberTooLong ∧ limits.HasLongNumber text := by
  unfold decimalNumber? at failed
  extract_lets negative signed body at failed
  split at failed
  case h_1 whole wholeWidth read =>
    split at failed
    case isTrue => cases failed
    case isFalse =>
      extract_lets start after at failed
      split at failed
      split at failed
      split at failed
      case isFalse => cases failed
      case isTrue =>
        simp only [Option.some.injEq, Prod.mk.injEq] at failed
        obtain ⟨failed, -⟩ := failed
        split at failed
        case isFalse => cases failed
        case isTrue long =>
          cases failed
          have front : body <:+ text := by
            simp only [body]
            split
            · exact List.drop_suffix 1 text
            · exact List.suffix_refl text
          exact ⟨rfl, (hasLongNumber_whole read long).mono front⟩

/-! ## Values -/

theorem keeps_readScalar (place : Place) :
    limits.Keeps depth place.rest (·.2.rest) (readScalar place) := by
  unfold readScalar
  split
  · exact (keeps_readLines false place).map fun _ => rfl
  split
  · exact (keeps_readBasicLine place).map fun _ => rfl
  split
  · exact (keeps_readLines true place).map fun _ => rfl
  split
  · exact (keeps_readLiteralLine place).map fun _ => rfl
  split
  · exact .ok (place.skip_suffix 4)
  split
  · exact .ok (place.skip_suffix 5)
  split
  · split
    · exact .ok (place.skip_suffix _)
    · exact keeps_malformed
  split
  · exact .ok (place.skip_suffix _)
  split
  · exact .ok (place.skip_suffix _)
  split
  case h_1 value width read =>
    cases value with
    | ok value => exact .ok (place.skip_suffix _)
    | error fault =>
      obtain ⟨rfl, long⟩ := decimalNumber?_error read
      exact .error nofun fun _ => long
  case h_2 =>
    split
    · exact .ok (place.skip_suffix _)
    split
    · exact .ok (place.skip_suffix _)
    split
    · exact .ok (place.skip_suffix _)
    split
    · exact .ok (place.skip_suffix _)
    · exact keeps_malformed

/-- What the four readers keep with a given number of steps. -/
structure StepsSuffice (bound : Nat) : Prop where
  value : ∀ depth place, 2 * place.rest.length + 1 ≤ bound →
    limits.Keeps depth place.rest (·.2.rest) (readValue bound depth place)
  items : ∀ depth found place, 2 * place.rest.length + 2 ≤ bound →
    limits.Keeps depth place.rest (·.2.rest) (readItems bound depth found place)
  members : ∀ depth frozen found place, 2 * place.rest.length + 2 ≤ bound →
    limits.Keeps depth place.rest (·.2.rest) (readMembers bound depth frozen found place)
  pair : ∀ depth place, 2 * place.rest.length + 1 ≤ bound →
    limits.Keeps depth place.rest (·.2.2.rest) (readPair bound depth place)

theorem StepsSuffice.pair_succ {bound : Nat} (steps : StepsSuffice bound) (depth : Nat) (place : Place)
    (enough : 2 * place.rest.length + 1 ≤ bound + 1) :
    limits.Keeps depth place.rest (·.2.2.rest) (readPair (bound + 1) depth place) := by
  simp only [readPair]
  have keyed := @keeps_readKey depth place
  refine keyed.bind ?_
  rintro ⟨key, next⟩ read
  have behind := (keyed.goesOn _ read).length_le
  dsimp only at behind ⊢
  split
  case isTrue => exact keeps_malformed
  case isFalse seen =>
    have onward := (next.skip 1).skipWhile_suffix isSpace
    have equals : next.sees "=" = true := by simpa using seen
    have shorter := Place.length_lt (c := '=') equals onward
    have valued := steps.value depth ((next.skip 1).skipWhile isSpace) (by omega)
    refine (valued.bind ?_).mono (onward.trans (next.skip_suffix 1))
    rintro ⟨value, after⟩ -
    exact .ok (List.suffix_refl _)

theorem StepsSuffice.items_succ {bound : Nat} (steps : StepsSuffice bound) (depth : Nat)
    (found : List Value) (place : Place) (enough : 2 * place.rest.length + 2 ≤ bound + 1) :
    limits.Keeps depth place.rest (·.2.rest) (readItems (bound + 1) depth found place) := by
  simp only [readItems]
  have valued := steps.value depth place (by omega)
  refine valued.bind ?_
  rintro ⟨value, next⟩ read
  have behind := (valued.goesOn _ read).length_le
  dsimp only at behind ⊢
  have filled := @keeps_skipFiller depth (next.rest.length + 1) next
  refine filled.bind fun blank passed => ?_
  have blanks := (filled.goesOn _ passed).length_le
  split
  · exact .ok (blank.skip_suffix 1)
  · split
    case isTrue => exact keeps_malformed
    case isFalse seen =>
      have comma : blank.sees "," = true := by simpa using seen
      have refilled := @keeps_skipFiller depth (blank.rest.length + 1) (blank.skip 1)
      refine (refilled.bind fun last passed => ?_).mono (blank.skip_suffix 1)
      have shorter := Place.length_lt (c := ',') comma (refilled.goesOn _ passed)
      split
      · exact .ok (last.skip_suffix 1)
      · exact steps.items depth _ last (by omega)

theorem StepsSuffice.members_succ {bound : Nat} (steps : StepsSuffice bound) (depth : Nat)
    (frozen : List Key) (found : List (Text × Value)) (place : Place)
    (enough : 2 * place.rest.length + 2 ≤ bound + 1) :
    limits.Keeps depth place.rest (·.2.rest) (readMembers (bound + 1) depth frozen found place) := by
  simp only [readMembers]
  have paired := steps.pair depth place (by omega)
  refine paired.bind ?_
  rintro ⟨key, value, next⟩ read
  have behind := (paired.goesOn _ read).length_le
  have blanks := next.skipWhile_suffix isSpace
  dsimp only at behind ⊢
  split
  · exact keeps_malformed
  · split
    · exact keeps_malformed
    · split
      · exact keeps_malformed
      · split
        · exact .ok ((Place.skip_suffix _ 1).trans blanks)
        · split
          case isTrue => exact keeps_malformed
          case isFalse seen =>
            have comma : (next.skipWhile isSpace).sees "," = true := by simpa using seen
            have onward := ((next.skipWhile isSpace).skip 1).skipWhile_suffix isSpace
            have shorter := Place.length_lt (c := ',') comma onward
            have length := blanks.length_le
            exact (steps.members depth _ _ _ (by omega)).mono
              (onward.trans ((Place.skip_suffix _ 1).trans blanks))

theorem StepsSuffice.value_succ {bound : Nat} (steps : StepsSuffice bound) (depth : Nat) (place : Place)
    (enough : 2 * place.rest.length + 1 ≤ bound + 1) :
    limits.Keeps depth place.rest (·.2.rest) (readValue (bound + 1) depth place) := by
  simp only [readValue]
  split
  case isTrue seen =>
    have filled := @keeps_skipFiller (depth - 2) (place.rest.length + 1) (place.skip 1)
    have later : limits.Keeps (depth - 2) (place.skip 1).rest (·.2.rest) (do
        let inside ← skipFiller (place.rest.length + 1) (place.skip 1)
        if inside.sees "]" then pure (.list [], inside.skip 1)
        else readItems bound (depth - 2) [] inside) := by
      refine filled.bind fun inside passed => ?_
      have shorter := Place.length_lt (c := '[') seen (filled.goesOn _ passed)
      split
      · exact .ok (inside.skip_suffix 1)
      · exact steps.items (depth - 2) [] inside (by omega)
    have whole : limits.Keeps depth (Codepoint.char '[' :: (place.skip 1).rest) _ _ := later.bracket
    rw [← Place.rest_of_starts (c := '[') seen] at whole
    exact whole
  case isFalse =>
    split
    case isTrue seen =>
      have inner := (place.skip 1).skipWhile_suffix isSpace
      have shorter := Place.length_lt (c := '\x7b') seen inner
      have later : limits.Keeps (depth - 3) (place.skip 1).rest (·.2.rest)
          (if ((place.skip 1).skipWhile isSpace).sees "\x7d" then
              pure (.table [], ((place.skip 1).skipWhile isSpace).skip 1)
            else readMembers bound (depth - 3) [] [] ((place.skip 1).skipWhile isSpace)) := by
        split
        · exact .ok ((Place.skip_suffix _ 1).trans inner)
        · exact (steps.members (depth - 3) [] [] _ (by omega)).mono inner
      have whole : limits.Keeps depth (Codepoint.char '\x7b' :: (place.skip 1).rest) _ _ :=
        later.bracket
      rw [← Place.rest_of_starts (c := '\x7b') seen] at whole
      exact whole
    case isFalse => exact keeps_readScalar place

theorem stepsSuffice (bound : Nat) : StepsSuffice bound := by
  induction bound with
  | zero => exact ⟨by omega, by omega, by omega, by omega⟩
  | succ bound ih => exact ⟨ih.value_succ, ih.items_succ, ih.members_succ, ih.pair_succ⟩

/-! ## Documents -/

theorem keeps_readAssignment (document : Document) (place : Place) :
    limits.Keeps depthLimit place.rest (·.2.rest)
      (readAssignment (2 * place.rest.length + 4) document place) := by
  simp only [readAssignment]
  refine ((stepsSuffice _).pair depthLimit place (by omega)).bind ?_
  rintro ⟨key, value, next⟩ -
  dsimp only
  split
  · exact keeps_malformed
  · split
    · exact keeps_malformed
    · split
      · exact keeps_malformed
      · exact .ok (List.suffix_refl _)

theorem keeps_readTableHeader (document : Document) (place : Place) :
    limits.Keeps depth place.rest (·.2.rest) (readTableHeader document place) := by
  simp only [readTableHeader]
  refine ((keeps_readKey _).mono
    ((Place.skipWhile_suffix _ _).trans (place.skip_suffix 1))).bind ?_
  rintro ⟨key, next⟩ -
  dsimp only
  split
  · exact keeps_malformed
  · split
    · exact keeps_malformed
    · split
      · exact keeps_malformed
      · exact .ok (next.skip_suffix 1)

theorem keeps_readArrayHeader (document : Document) (place : Place) :
    limits.Keeps depth place.rest (·.2.rest) (readArrayHeader document place) := by
  simp only [readArrayHeader]
  refine ((keeps_readKey _).mono
    ((Place.skipWhile_suffix _ _).trans (place.skip_suffix 2))).bind ?_
  rintro ⟨key, next⟩ -
  dsimp only
  split
  · exact keeps_malformed
  · split
    · exact keeps_malformed
    · split
      · exact keeps_malformed
      · exact .ok (next.skip_suffix 2)

theorem keeps_endStatement {goOn : Place → Except ReadError Document}
    (later : ∀ place, limits.Keeps depthLimit place.rest (fun _ => []) (goOn place))
    (document : Document) (place : Place) :
    limits.Keeps depthLimit place.rest (fun _ => []) (endStatement goOn document place) := by
  refine ((keeps_skipComment _).mono (place.skipWhile_suffix isSpace)).bind fun next _ => ?_
  split
  · exact .ok (List.nil_suffix)
  · split
    · exact (later _).mono (next.skip_suffix 1)
    · exact keeps_malformed

theorem keeps_readStatements (bound : Nat) (document : Document) (place : Place) :
    limits.Keeps depthLimit place.rest (fun _ => []) (readStatements bound document place) := by
  induction bound generalizing document place with
  | zero => exact .ok (List.nil_suffix)
  | succ bound ih =>
    simp only [readStatements]
    refine Limits.Keeps.mono ?_ (place.skipWhile_suffix isSpace)
    generalize place.skipWhile isSpace = place
    -- What follows is the same behind every kind of statement.
    have later : ∀ read : Document × Place, limits.Keeps depthLimit read.2.rest (fun _ => [])
        (endStatement (readStatements bound read.1) read.1 read.2) :=
      fun read => keeps_endStatement (ih read.1) read.1 read.2
    split
    · exact .ok (List.nil_suffix)
    · split
      · exact (ih _ _).mono (place.skip_suffix 1)
      · split
        · exact (keeps_readAssignment document place).bind fun read _ => later read
        · split
          · exact (keeps_readArrayHeader document place).bind fun read _ => later read
          · split
            · exact (keeps_readTableHeader document place).bind fun read _ => later read
            · split
              · exact later (document, place)
              · exact keeps_malformed

/-- A document is given up only if its brackets count more than `depthLimit` or it has a long number. -/
theorem read_gives_up {text : Text} :
    (read text = .error .tooDeep → depthLimit < limits.weight (dropReturns [] text)) ∧
      (read text = .error .numberTooLong → limits.HasLongNumber (dropReturns [] text)) := by
  have keeps : limits.Keeps depthLimit (dropReturns [] text) (fun _ => []) (read text) := by
    simp only [read]
    refine (keeps_readStatements _ _ { rest := dropReturns [] text, position := 0 }).bind ?_
    exact fun document _ => .ok (List.nil_suffix)
  exact ⟨keeps.deep, keeps.long⟩

end Deadwood.Toml
