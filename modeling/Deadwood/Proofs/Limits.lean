import Mathlib.Data.List.Infix
import Deadwood.Json.Reader
import Deadwood.Number.Numeral
import Deadwood.Proofs.Outcome

/-!
# Limits of reading

A reader gives up on values that are nested too deeply and on numbers with too
many digits.  Both have a cause in the text: enough opening brackets, and a long
run of digits.  The bound on the steps of a reader is no limit of its own, since
every step that needs a new one has passed over a code point.
-/

namespace Deadwood

variable {ε α β : Type}

/-- The limits of a reader: the errors with which it gives up, what a code point adds to the depth, and
of which code points numbers are made. -/
structure Limits (ε : Type) where
  tooDeep : ε
  numberTooLong : ε
  apart : tooDeep ≠ numberTooLong
  cost : Codepoint → Nat
  isNumeral : Codepoint → Bool

namespace Limits

variable {limits : Limits ε} {depth : Nat} {text other : Text} {rest : α → Text} {further : β → Text}

/-- The depth that a text can reach at most. -/
def weight (limits : Limits ε) : Text → Nat
  | [] => 0
  | c :: rest => limits.cost c + weight limits rest

/-- Somewhere in a text stands a number with too many digits. -/
def HasLongNumber (limits : Limits ε) (text : Text) : Prop :=
  ∃ run, run <:+: text ∧ Numeral.digitLimit < run.length ∧ ∀ c ∈ run, limits.isNumeral c = true

/-- What reading at the front of a text may come to: it goes on with an end of the text, and it gives
up only where the text is over a limit. -/
structure Keeps (limits : Limits ε) (depth : Nat) (text : Text) (rest : α → Text)
    (outcome : Except ε α) : Prop where
  goesOn : ∀ value, outcome = .ok value → rest value <:+ text
  deep : outcome = .error limits.tooDeep → depth < limits.weight text
  long : outcome = .error limits.numberTooLong → limits.HasLongNumber text

theorem weight_le (limits : Limits ε) (ends : other <:+ text) :
    limits.weight other ≤ limits.weight text := by
  obtain ⟨front, rfl⟩ := ends
  induction front with
  | nil => exact Nat.le_refl _
  | cons c rest ih => exact ih.trans (Nat.le_add_left _ _)

theorem HasLongNumber.mono (long : limits.HasLongNumber other) (ends : other <:+ text) :
    limits.HasLongNumber text := by
  obtain ⟨run, inside, length, digits⟩ := long
  exact ⟨run, inside.trans ends.isInfix, length, digits⟩

theorem not_hasLongNumber (short : text.length ≤ Numeral.digitLimit) :
    ¬ limits.HasLongNumber text := by
  rintro ⟨run, inside, length, -⟩
  exact absurd (inside.length_le.trans short) (Nat.not_le.mpr length)

namespace Keeps

theorem ok {value : α} (ends : rest value <:+ text) : limits.Keeps depth text rest (.ok value) := by
  refine ⟨?_, by simp, by simp⟩
  rintro _ ⟨⟩
  exact ends

theorem error {fault : ε} (deep : fault = limits.tooDeep → depth < limits.weight text)
    (long : fault = limits.numberTooLong → limits.HasLongNumber text) :
    limits.Keeps depth text rest (.error fault) :=
  ⟨by simp, fun equal => deep (Except.error.inj equal), fun equal => long (Except.error.inj equal)⟩

theorem mono {outcome : Except ε α} (keeps : limits.Keeps depth other rest outcome)
    (ends : other <:+ text) : limits.Keeps depth text rest outcome where
  goesOn value read := (keeps.goesOn value read).trans ends
  deep failed := (keeps.deep failed).trans_le (limits.weight_le ends)
  long failed := (keeps.long failed).mono ends

/-- Reading goes on from where it has come to. -/
theorem bind {first : Except ε α} {next : α → Except ε β} (keeps : limits.Keeps depth text rest first)
    (later : ∀ value, first = .ok value → limits.Keeps depth (rest value) further (next value)) :
    limits.Keeps depth text further (first.bind next) := by
  cases first with
  | error fault =>
    exact error (fun same => keeps.deep (congrArg _ same)) fun same => keeps.long (congrArg _ same)
  | ok value => exact (later value rfl).mono (keeps.goesOn value rfl)

theorem map {outcome : Except ε α} {f : α → β} (keeps : limits.Keeps depth text rest outcome)
    (same : ∀ value, further (f value) = rest value) :
    limits.Keeps depth text further (outcome.map f) := by
  cases outcome with
  | error fault =>
    exact error (fun equal => keeps.deep (congrArg _ equal)) fun equal => keeps.long (congrArg _ equal)
  | ok value => exact ok (same value ▸ keeps.goesOn value rfl)

/-- What an opening bracket counts is taken from the depth for what is inside. -/
theorem bracket {outcome : Except ε α} {bracket : Codepoint} {after : Text}
    (keeps : limits.Keeps (depth - limits.cost bracket) after rest outcome) :
    limits.Keeps depth (bracket :: after) rest
      (if depth < limits.cost bracket then .error limits.tooDeep else outcome) := by
  have heavier : limits.weight (bracket :: after) = limits.cost bracket + limits.weight after := rfl
  split
  case isTrue shallow => exact .error (fun _ => by omega) fun same => absurd same limits.apart
  case isFalse =>
    refine ⟨fun value read => (keeps.goesOn value read).trans (List.suffix_cons bracket after), ?_, ?_⟩
    · intro failed
      have below := keeps.deep failed
      omega
    · exact fun failed => (keeps.long failed).mono (List.suffix_cons bracket after)

end Keeps

end Limits

/-! ## Reading JSON -/

namespace Json

variable {depth : Nat} {place : Place}

theorem tooDeep_ne_numberTooLong : ReadError.tooDeep ≠ .numberTooLong := nofun

/-- Every opening bracket counts one. -/
def limits : Limits ReadError where
  tooDeep := .tooDeep
  numberTooLong := .numberTooLong
  apart := tooDeep_ne_numberTooLong
  cost c := if c = Codepoint.char '[' then 1 else if c = Codepoint.char '\x7b' then 1 else 0
  isNumeral := isDigit

theorem keeps_malformed {α : Type} {rest : α → Text} {text : Text} {trouble : Trouble} {position : Nat} :
    limits.Keeps depth text rest (.error (.malformed trouble position)) :=
  .error nofun nofun

theorem Place.skip_suffix (place : Place) (n : Nat) : (place.skip n).rest <:+ place.rest :=
  List.drop_suffix n place.rest

theorem Place.skipBlanks_suffix (place : Place) : place.skipBlanks.rest <:+ place.rest :=
  place.skip_suffix _

theorem Place.rest_of_sees {c : Char} (seen : place.sees c = true) :
    place.rest = Codepoint.char c :: (place.skip 1).rest := by
  simp only [sees, decide_eq_true_eq] at seen
  simp only [skip]
  cases split : place.rest with
  | nil => simp [split] at seen
  | cons d after =>
    rw [split, List.head?_cons, Option.some.injEq] at seen
    simp [seen]

theorem keeps_unicodeEscape (place : Place) (text : Text) :
    limits.Keeps depth text (fun _ => text) (unicodeEscape place) := by
  simp only [unicodeEscape]
  split
  · exact keeps_malformed
  · split
    · split
      · exact keeps_malformed
      · split
        · split <;> exact .ok (List.suffix_refl text)
        · exact .ok (List.suffix_refl text)
    · exact .ok (List.suffix_refl text)

theorem keeps_readString (start : Nat) (found : Text) (skip position : Nat) (text : Text) :
    limits.Keeps depth text (·.2.rest) (readString start found skip position text) := by
  induction text generalizing found skip position with
  | nil => cases skip <;> exact keeps_malformed
  | cons c rest ih =>
    have later : ∀ found skip position, limits.Keeps depth (c :: rest) (·.2.rest)
        (readString start found skip position rest) := fun found skip position =>
      (ih found skip position).mono (List.suffix_cons c rest)
    cases skip with
    | succ skip => exact later found skip (position + 1)
    | zero =>
      simp only [readString]
      split
      · exact .ok (List.suffix_cons c rest)
      · split
        · split
          · exact keeps_malformed
          · split
            · exact (keeps_unicodeEscape _ _).bind fun escape _ => later _ _ _
            · split
              · exact later _ _ _
              · exact keeps_malformed
        · split
          · exact keeps_malformed
          · exact later _ _ _

/-- Too many digits before a point are a run of digits in the text. -/
theorem hasLongNumber_whole (body : Place)
    (long : Numeral.digitLimit <
      (if body.sees '0' then body.rest.take 1 else body.rest.takeWhile isDigit).length) :
    limits.HasLongNumber body.rest := by
  split at long
  · have single := List.length_take_le 1 body.rest
    exact absurd long (Nat.not_lt.mpr (single.trans (by decide)))
  · exact ⟨_, (List.takeWhile_prefix isDigit).isInfix, long, List.all_eq_true.mp List.all_takeWhile⟩

theorem keeps_readNumber (place : Place) :
    limits.Keeps depth place.rest (·.2.rest) (readNumber place) := by
  simp only [readNumber]
  have front : (if place.sees '-' = true then place.skip 1 else place).rest <:+ place.rest := by
    split
    · exact place.skip_suffix 1
    · exact List.suffix_refl _
  generalize (if place.sees '-' = true then place.skip 1 else place) = body at front ⊢
  have numeral := hasLongNumber_whole body
  generalize (if body.sees '0' = true then body.rest.take 1
    else body.rest.takeWhile isDigit) = whole at numeral ⊢
  have behind := (body.skip_suffix whole.length).trans front
  generalize body.skip whole.length = after at behind ⊢
  split
  · exact keeps_malformed
  · split
    · split
      case isTrue long => exact .error nofun fun _ => (numeral long).mono front
      case isFalse => exact .ok behind
    · refine .ok (((Place.skip_suffix _ _).trans ?_).trans behind)
      split
      · exact List.suffix_refl _
      · exact after.skip_suffix _

/-- What the three readers keep with a given number of steps. -/
structure StepsSuffice (bound : Nat) : Prop where
  value : ∀ depth place, 2 * place.rest.length + 1 ≤ bound →
    limits.Keeps depth place.rest (·.2.rest) (readValue bound depth place)
  members : ∀ depth found place, 2 * place.rest.length + 2 ≤ bound →
    limits.Keeps depth place.rest (·.2.rest) (readMembers bound depth found place)
  items : ∀ depth found place, 2 * place.rest.length + 2 ≤ bound →
    limits.Keeps depth place.rest (·.2.rest) (readItems bound depth found place)

theorem length_lt_of_sees {c : Char} {next : Place} (seen : place.sees c = true)
    (ends : next.rest <:+ (place.skip 1).rest) : next.rest.length < place.rest.length := by
  have shorter := ends.length_le
  rw [Place.rest_of_sees seen, List.length_cons]
  omega

/-- Behind an opening bracket comes the closing one, or what is inside. -/
theorem keeps_bracket {bracket closing : Char} {empty : Json} {inside : Except ReadError (Json × Place)}
    (seen : place.sees bracket = true) (cost : limits.cost (Codepoint.char bracket) = 1)
    (later : limits.Keeps (depth - 1) (place.skip 1).skipBlanks.rest (·.2.rest) inside) :
    limits.Keeps depth place.rest (·.2.rest)
      (if depth = 0 then throw ReadError.tooDeep
        else if (place.skip 1).skipBlanks.sees closing then
          pure (empty, (place.skip 1).skipBlanks.skip 1)
        else inside) := by
  have inner := (place.skip 1).skipBlanks_suffix
  have taken : limits.Keeps (depth - limits.cost (Codepoint.char bracket)) (place.skip 1).rest
      (·.2.rest) (if (place.skip 1).skipBlanks.sees closing then
        pure (empty, (place.skip 1).skipBlanks.skip 1) else inside) := by
    rw [cost]
    split
    · exact .ok ((Place.skip_suffix _ 1).trans inner)
    · exact later.mono inner
  have whole := taken.bracket
  simp only [← Place.rest_of_sees seen, cost, Nat.lt_one_iff] at whole
  exact whole

/-- Behind a value comes the closing bracket, or a comma with what follows it. -/
theorem keeps_separated {closing : Char} {whole : Json} {again : Except ReadError (Json × Place)}
    (later : place.skipBlanks.sees ',' = true →
      limits.Keeps depth (place.skipBlanks.skip 1).skipBlanks.rest (·.2.rest) again) :
    limits.Keeps depth place.rest (·.2.rest)
      (if place.skipBlanks.sees closing then pure (whole, place.skipBlanks.skip 1)
        else if !place.skipBlanks.sees ',' then place.skipBlanks.fail .expectingComma
        else again) := by
  have behind := (place.skipBlanks.skip_suffix 1).trans place.skipBlanks_suffix
  split
  · exact .ok behind
  · split
    case isTrue => exact keeps_malformed
    case isFalse seen =>
      refine (later (by simpa using seen)).mono ?_
      exact (Place.skipBlanks_suffix _).trans behind

theorem StepsSuffice.value_succ {bound : Nat} (steps : StepsSuffice bound) (depth : Nat) (place : Place)
    (enough : 2 * place.rest.length + 1 ≤ bound + 1) :
    limits.Keeps depth place.rest (·.2.rest) (readValue (bound + 1) depth place) := by
  have inner := (place.skip 1).skipBlanks_suffix
  simp only [readValue]
  split
  · refine ((keeps_readString _ _ _ _ _).mono (List.drop_suffix 1 place.rest)).bind ?_
    exact fun read _ => .ok (List.suffix_refl _)
  · split
    case isTrue seen =>
      have shorter := length_lt_of_sees seen inner
      exact keeps_bracket seen rfl (steps.members (depth - 1) [] _ (by omega))
    case isFalse =>
      split
      case isTrue seen =>
        have shorter := length_lt_of_sees seen inner
        exact keeps_bracket seen rfl (steps.items (depth - 1) [] _ (by omega))
      case isFalse =>
        split
        · exact .ok (place.skip_suffix _)
        · exact keeps_readNumber place

theorem StepsSuffice.members_succ {bound : Nat} (steps : StepsSuffice bound) (depth : Nat)
    (found : List (Text × Json)) (place : Place) (enough : 2 * place.rest.length + 2 ≤ bound + 1) :
    limits.Keeps depth place.rest (·.2.rest) (readMembers (bound + 1) depth found place) := by
  simp only [readMembers]
  split
  · exact keeps_malformed
  · have named : limits.Keeps depth place.rest (·.2.rest) (readString place.position [] 0
        (place.position + 1) (place.rest.drop 1)) :=
      (keeps_readString _ _ _ _ _).mono (List.drop_suffix 1 place.rest)
    refine named.bind ?_
    rintro ⟨name, next⟩ read
    have behind := (named.goesOn _ read).length_le
    have blanks := next.skipBlanks_suffix
    dsimp only at behind ⊢
    split
    case isTrue => exact keeps_malformed
    case isFalse seen =>
      have onward := (next.skipBlanks.skip 1).skipBlanks_suffix
      have shorter := length_lt_of_sees (by simpa using seen) onward
      have fits := blanks.length_le
      have valued := steps.value depth (next.skipBlanks.skip 1).skipBlanks (by omega)
      refine (valued.bind ?_).mono (onward.trans ((Place.skip_suffix _ 1).trans blanks))
      rintro ⟨value, after⟩ read
      refine keeps_separated fun comma => ?_
      dsimp only at comma ⊢
      have later := length_lt_of_sees comma (Place.skipBlanks_suffix _)
      have further := (after.skipBlanks_suffix.trans (valued.goesOn _ read)).length_le
      exact steps.members depth _ _ (by omega)

theorem StepsSuffice.items_succ {bound : Nat} (steps : StepsSuffice bound) (depth : Nat)
    (found : List Json) (place : Place) (enough : 2 * place.rest.length + 2 ≤ bound + 1) :
    limits.Keeps depth place.rest (·.2.rest) (readItems (bound + 1) depth found place) := by
  simp only [readItems]
  have valued := steps.value depth place (by omega)
  refine valued.bind ?_
  rintro ⟨value, next⟩ read
  refine keeps_separated fun comma => ?_
  dsimp only at comma ⊢
  have later := length_lt_of_sees comma (Place.skipBlanks_suffix _)
  have further := (next.skipBlanks_suffix.trans (valued.goesOn _ read)).length_le
  exact steps.items depth _ _ (by omega)

theorem stepsSuffice (bound : Nat) : StepsSuffice bound := by
  induction bound with
  | zero => exact ⟨by omega, by omega, by omega⟩
  | succ bound ih => exact ⟨ih.value_succ, ih.members_succ, ih.items_succ⟩

/-- A text is given up only if it has more than `depthLimit` opening brackets or a long number. -/
theorem read_gives_up {text : Text} :
    (read text = .error .tooDeep → depthLimit < limits.weight text) ∧
      (read text = .error .numberTooLong → limits.HasLongNumber text) := by
  have keeps : limits.Keeps depthLimit text (fun _ => []) (read text) := by
    simp only [read]
    split
    · exact keeps_malformed
    · have start := Place.skipBlanks_suffix { rest := text, position := 0 }
      have length := start.length_le
      refine (((stepsSuffice _).value depthLimit _ (by dsimp only at length; omega)).bind ?_).mono start
      rintro ⟨value, next⟩ -
      dsimp only
      split
      · exact .ok (List.nil_suffix)
      · exact keeps_malformed
  exact ⟨keeps.deep, keeps.long⟩

end Json

end Deadwood
