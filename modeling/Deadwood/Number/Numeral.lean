import Deadwood.Number.Binary64
import Deadwood.Text.Blank
import Deadwood.Text.Digit

/-!
# Numerals

Reading whole numbers and decimals as they are given in variables: with blanks
around them, digits of any script, and single underscores between digits.
-/

namespace Deadwood.Numeral

/-- The most digits that a numeral may have. -/
def digitLimit : Nat := 4300

/-- Digits read from the front, with single underscores between them, and what follows; `after` tells whether a digit
came last. -/
def digitsFrom (after : Bool) (found : List Nat) : Text → Option (List Nat × Text)
  | [] => if after then some (found.reverse, []) else none
  | c :: rest =>
    match c.digit? with
    | some d => digitsFrom true (d :: found) rest
    | none =>
      if after then
        if c = Codepoint.char '_' then digitsFrom false found rest else some (found.reverse, c :: rest)
      else none

/-- At least one digit at the front. -/
def digits (text : Text) : Option (List Nat × Text) := digitsFrom false [] text

/-- The number that digits stand for. -/
def value (ds : List Nat) : Nat := ds.foldl (fun n d => 10 * n + d) 0

/-- The sign at the front, if there is one. -/
def sign : Text → Bool × Text
  | [] => (false, [])
  | c :: rest =>
    if c = Codepoint.char '-' then (true, rest)
    else if c = Codepoint.char '+' then (false, rest)
    else (false, c :: rest)

/-- Why a text is no whole number. -/
inductive WholeError where
  | malformed
  | tooLong (digits : Nat)

/-- The whole number that a text stands for. -/
def whole (text : Text) : Except WholeError Int :=
  let (negative, body) := sign (Text.trim text)
  match digits body with
  | some (ds, []) =>
    if digitLimit < ds.length then throw (.tooLong ds.length)
    else pure (if negative then -(value ds : Int) else value ds)
  | _ => throw .malformed

/-- A text in small ASCII letters. -/
def smallLetters (text : Text) : Text := text.map fun c => match c with
  | .char c => .char c.toLower
  | c => c

/-- An exponent and what follows. -/
def exponent (text : Text) : Option (Int × Text) :=
  match text with
  | [] => some (0, [])
  | c :: rest =>
    if c = Codepoint.char 'e' || c = Codepoint.char 'E' then
      let (negative, body) := sign rest
      (digits body).map fun (ds, rest) => (if negative then -(value ds : Int) else value ds, rest)
    else some (0, c :: rest)

/-- The number that an unsigned decimal stands for. -/
def unsignedDecimal (negative : Bool) (body : Text) : Option Binary64 :=
  let small := smallLetters body
  if small = ("inf" : Text) || small = ("infinity" : Text) then some (.infinite negative)
  else if small = ("nan" : Text) then some .nan
  else do
    let (before, rest) := (digits body).getD ([], body)
    let (after, rest) ← match rest with
      | c :: more =>
        if c = Codepoint.char '.' then
          match more with
          | [] => some ([], [])
          | d :: _ => if d.digit?.isSome then digits more else some ([], more)
        else some ([], rest)
      | [] => some ([], [])
    if before = [] && after = [] then none
    else
      let (power, rest) ← exponent rest
      if rest = [] then some (.ofDecimal negative (value (before ++ after)) (power - after.length)) else none

/-- The number that a decimal stands for. -/
def decimal (text : Text) : Option Binary64 :=
  let (negative, body) := sign (Text.trim text)
  unsignedDecimal negative body

end Deadwood.Numeral
