import Deadwood.Text.Basic

/-!
# Dates and times

Dates, times of day, and both together with an offset if one is given.
-/

namespace Deadwood

/-- A date. -/
structure Date where
  year : Nat
  month : Nat
  day : Nat
  deriving DecidableEq, Repr

/-- A time of day. -/
structure Clock where
  hour : Nat
  minute : Nat
  second : Nat
  micros : Nat
  deriving DecidableEq, Repr

/-- A date, a time, or both; an offset counts minutes. -/
inductive Moment where
  | date (date : Date)
  | clock (clock : Clock)
  | both (date : Date) (clock : Clock) (offset : Option Int)
  deriving DecidableEq, Repr

/-- A numeral with at least some digits. -/
def Text.padded (width n : Nat) : Text :=
  let digits := Nat.toDigits 10 n
  Text.ofChars (List.replicate (width - digits.length) '0' ++ digits)

namespace Date

def isLeap (year : Nat) : Bool := year % 4 = 0 && (year % 100 ≠ 0 || year % 400 = 0)

/-- The number of days of a month. -/
def monthLength (year month : Nat) : Nat :=
  if month = 2 then if isLeap year then 29 else 28
  else if [4, 6, 9, 11].contains month then 30
  else 31

/-- Whether the calendar has a date. -/
def isValid (date : Date) : Bool :=
  1 ≤ date.year && 1 ≤ date.month && date.month ≤ 12 && 1 ≤ date.day && date.day ≤ monthLength date.year date.month

def toText (date : Date) : Text :=
  Text.joinWith "-" [Text.padded 4 date.year, Text.padded 2 date.month, Text.padded 2 date.day]

/-- The numbers of a date. -/
def numbers (date : Date) : List Nat := [date.year, date.month, date.day]

end Date

namespace Clock

def toText (clock : Clock) : Text :=
  Text.joinWith ":" [Text.padded 2 clock.hour, Text.padded 2 clock.minute, Text.padded 2 clock.second] ++
    (if clock.micros = 0 then [] else Codepoint.char '.' :: Text.padded 6 clock.micros)

/-- The numbers of a time, without zeros at their end after the minute. -/
def numbers (clock : Clock) : List Nat :=
  [clock.hour, clock.minute] ++
    (if clock.micros ≠ 0 then [clock.second, clock.micros] else if clock.second ≠ 0 then [clock.second] else [])

end Clock

namespace Moment

def offsetText (offset : Int) : Text :=
  (if offset < 0 then "-" else "+") ++ Text.padded 2 (offset.natAbs / 60) ++ ":" ++ Text.padded 2 (offset.natAbs % 60)

/-- The text of a moment. -/
def toText : Moment → Text
  | .date day => day.toText
  | .clock time => time.toText
  | .both day time offset =>
    day.toText ++ " " ++ time.toText ++ (match offset with
      | some offset => offsetText offset
      | none => [])

/-- The name of the kind of a moment. -/
def kindName : Moment → String
  | .date _ => "date"
  | .clock _ => "time"
  | .both .. => "datetime"

/-- An offset as it stands inside a list. -/
def offsetInList (offset : Int) : Text :=
  if offset = 0 then "datetime.timezone.utc"
  else if offset < 0 then
    "datetime.timezone(datetime.timedelta(days=-1, seconds=" ++ Text.ofInt (86400 + offset * 60) ++ "))"
  else "datetime.timezone(datetime.timedelta(seconds=" ++ Text.ofInt (offset * 60) ++ "))"

/-- A moment as it stands inside a list. -/
def inList (moment : Moment) : Text :=
  let numbers (ns : List Nat) : Text := Text.joinWith ", " (ns.map Text.ofNat)
  let inside := match moment with
    | .date day => numbers day.numbers
    | .clock time => numbers time.numbers
    | .both day time offset =>
      numbers (day.numbers ++ time.numbers) ++ (match offset with
        | some offset => ", tzinfo=" ++ offsetInList offset
        | none => [])
  ("datetime." : Text) ++ moment.kindName ++ "(" ++ inside ++ ")"

end Moment

end Deadwood
