import Deadwood.Json.Basic

/-!
# Reading JSON

A reader for one JSON value.  `NaN` and the infinities are accepted, the last
of several members with one name counts, and an escaped surrogate may stand
alone.  What is wrong is told with the place where it was noticed.
-/

namespace Deadwood.Json

/-- What is wrong with a text. -/
inductive Trouble where
  | byteOrderMark
  | expectingValue
  | expectingName
  | expectingColon
  | expectingComma
  | unterminatedString
  | controlCharacter
  | badEscape
  | badUnicodeEscape
  | extraData
  deriving DecidableEq, Repr

def Trouble.description : Trouble → String
  | byteOrderMark => "Unexpected UTF-8 BOM (decode using utf-8-sig)"
  | expectingValue => "Expecting value"
  | expectingName => "Expecting property name enclosed in double quotes"
  | expectingColon => "Expecting ':' delimiter"
  | expectingComma => "Expecting ',' delimiter"
  | unterminatedString => "Unterminated string starting at"
  | controlCharacter => "Invalid control character at"
  | badEscape => "Invalid \\escape"
  | badUnicodeEscape => "Invalid \\uXXXX escape"
  | extraData => "Extra data"

/-- Why a text could not be read. -/
inductive ReadError where
  /-- The text is not JSON. -/
  | malformed (trouble : Trouble) (position : Nat)
  /-- A whole number has too many digits. -/
  | numberTooLong
  /-- Values are nested too deeply. -/
  | tooDeep
  deriving DecidableEq, Repr

/-- A trouble with its place in a text, by line, column and position. -/
def troubleMessage (text : Text) (trouble : Trouble) (position : Nat) : Text :=
  let before := text.take position
  let line := before.countP (· = Codepoint.char '\n') + 1
  let column := (before.reverse.takeWhile (· ≠ Codepoint.char '\n')).length + 1
  trouble.description ++ ": line " ++ Text.ofNat line ++ " column " ++ Text.ofNat column ++ " (char " ++
    Text.ofNat position ++ ")"

/-- What is left of a text, and how much of it is read. -/
structure Place where
  rest : Text
  position : Nat

namespace Place

/-- The place some code points further on. -/
def skip (place : Place) (n : Nat) : Place := { rest := place.rest.drop n, position := place.position + n }

def isBlank (c : Codepoint) : Bool :=
  c = Codepoint.char ' ' || c = Codepoint.char '\t' || c = Codepoint.char '\n' || c = Codepoint.char '\r'

/-- The place behind blanks. -/
def skipBlanks (place : Place) : Place := place.skip (place.rest.takeWhile isBlank).length

/-- Whether a code point is next. -/
def sees (place : Place) (c : Char) : Bool := place.rest.head? = some (Codepoint.char c)

/-- Fails at a place. -/
def fail {α : Type} (place : Place) (trouble : Trouble) : Except ReadError α :=
  throw (.malformed trouble place.position)

end Place

/-- The value of a digit in base sixteen. -/
def hexValue? : Codepoint → Option Nat
  | .char c =>
    if '0' ≤ c && c ≤ '9' then some (c.toNat - 48)
    else if 'a' ≤ c && c ≤ 'f' then some (c.toNat - 87)
    else if 'A' ≤ c && c ≤ 'F' then some (c.toNat - 55)
    else none
  | .surrogate _ => none

/-- The number of four digits in base sixteen at the front; something must follow them. -/
def fourHex? : Text → Option Nat
  | a :: b :: c :: d :: _ :: _ => do
    pure ((((← hexValue? a) * 16 + (← hexValue? b)) * 16 + (← hexValue? c)) * 16 + (← hexValue? d))
  | _ => none

/-- The code point that an escape stands for, after its backslash. -/
def simpleEscape? : Codepoint → Option Codepoint
  | .char c =>
    if c == '\x22' || c == '\\' || c == '/' then some (.char c)
    else if c == 'b' then some (.char '\x08')
    else if c == 'f' then some (.char '\x0c')
    else if c == 'n' then some (.char '\n')
    else if c == 'r' then some (.char '\r')
    else if c == 't' then some (.char '\t')
    else none
  | .surrogate _ => none

/-- The code point of an escape by number and the width of the escape after `\u`: a pair of surrogates is one code
point. -/
def unicodeEscape (place : Place) : Except ReadError (Codepoint × Nat) :=
  match fourHex? place.rest with
  | none => throw (.malformed .badUnicodeEscape (place.position - 1))
  | some n =>
    let single : Codepoint := (Codepoint.ofNat? n).getD (.char ' ')
    let after := place.rest.drop 4
    if 0xD800 ≤ n && n < 0xDC00 && 6 < after.length && Text.startsWith after "\\u" then
      match fourHex? (after.drop 2) with
      | none => throw (.malformed .badUnicodeEscape (place.position + 5))
      | some low =>
        if 0xDC00 ≤ low && low < 0xE000 then
          match Codepoint.ofNat? (0x10000 + (n - 0xD800) * 0x400 + (low - 0xDC00)) with
          | some pair => pure (pair, 10)
          | none => pure (single, 4)
        else pure (single, 4)
    else pure (single, 4)

/-- Reads a string that began at `start`, after the code points found, the last one first; the next `skip` belong to an
escape. -/
def readString (start : Nat) (found : Text) : Nat → Nat → Text → Except ReadError (Text × Place)
  | _, _, [] => throw (.malformed .unterminatedString start)
  | skip + 1, position, _ :: rest => readString start found skip (position + 1) rest
  | 0, position, c :: rest =>
    if c = Codepoint.char '\x22' then pure (found.reverse, { rest, position := position + 1 })
    else if c = Codepoint.char '\\' then
      match rest with
      | [] => throw (.malformed .unterminatedString start)
      | d :: more =>
        if d = Codepoint.char 'u' then do
          let (code, width) ← unicodeEscape { rest := more, position := position + 2 }
          readString start (code :: found) (width + 1) (position + 1) rest
        else match simpleEscape? d with
          | some code => readString start (code :: found) 1 (position + 1) rest
          | none => throw (.malformed .badEscape position)
    else if c.value < 0x20 then throw (.malformed .controlCharacter position)
    else readString start (c :: found) 0 (position + 1) rest

def isDigit : Codepoint → Bool
  | .char c => c.isDigit
  | .surrogate _ => false

/-- The number that ASCII digits stand for. -/
def digitsValue (digits : Text) : Nat := digits.foldl (fun n c => 10 * n + (c.value - 48)) 0

/-- The digits after a point, if there are any. -/
def fractionDigits : Text → Text
  | c :: rest => if c = Codepoint.char '.' then rest.takeWhile isDigit else []
  | [] => []

/-- The exponent at the front and its width; without digits it is none. -/
def exponentPart : Text → Option (Int × Nat)
  | c :: rest =>
    if c = Codepoint.char 'e' || c = Codepoint.char 'E' then
      let negative := rest.head? = some (Codepoint.char '-')
      let signed := negative || rest.head? = some (Codepoint.char '+')
      let body := if signed then rest.drop 1 else rest
      let digits := body.takeWhile isDigit
      if digits = [] then none
      else
        let size : Int := digitsValue digits
        some (if negative then -size else size, 1 + (if signed then 1 else 0) + digits.length)
    else none
  | [] => none

/-- Reads a number. -/
def readNumber (place : Place) : Except ReadError (Json × Place) :=
  let negative := place.sees '-'
  let body := if negative then place.skip 1 else place
  let whole := if body.sees '0' then body.rest.take 1 else body.rest.takeWhile isDigit
  if whole = [] then place.fail .expectingValue
  else
    let after := body.skip whole.length
    let fraction := fractionDigits after.rest
    let behind := if fraction = [] then after else after.skip (fraction.length + 1)
    match fraction, exponentPart behind.rest with
    | [], none =>
      if 4300 < whole.length then throw .numberTooLong
      else
        let size : Int := digitsValue whole
        pure (.int (if negative then -size else size), after)
    | _, found =>
      let (power, width) := found.getD (0, 0)
      pure (.float (.ofDecimal negative (digitsValue (whole ++ fraction)) (power - fraction.length)), behind.skip width)

/-- The words that are values. -/
def constants : List (String × Json) :=
  [("null", .null), ("true", .bool true), ("false", .bool false), ("NaN", .float .nan),
    ("Infinity", .float (.infinite false)), ("-Infinity", .float (.infinite true))]

/-- The deepest nesting of values. -/
def depthLimit : Nat := 990

mutual

/-- Reads a value; `depth` bounds what is inside it. -/
def readValue (bound depth : Nat) (place : Place) : Except ReadError (Json × Place) :=
  match bound with
  | 0 => throw .tooDeep
  | bound + 1 =>
    if place.sees '\x22' then do
      let (text, next) ← readString place.position [] 0 (place.position + 1) (place.rest.drop 1)
      pure (.string text, next)
    else if place.sees '\x7b' then
      if depth = 0 then throw .tooDeep
      else
        let inside := (place.skip 1).skipBlanks
        if inside.sees '\x7d' then pure (.object [], inside.skip 1)
        else readMembers bound (depth - 1) [] inside
    else if place.sees '[' then
      if depth = 0 then throw .tooDeep
      else
        let inside := (place.skip 1).skipBlanks
        if inside.sees ']' then pure (.array [], inside.skip 1)
        else readItems bound (depth - 1) [] inside
    else match constants.find? fun (word, _) => Text.startsWith place.rest word with
      | some (word, value) => pure (value, place.skip word.length)
      | none => readNumber place

/-- Reads the members of an object, after those found, the last one first. -/
def readMembers (bound depth : Nat) (found : List (Text × Json)) (place : Place) : Except ReadError (Json × Place) :=
  match bound with
  | 0 => throw .tooDeep
  | bound + 1 =>
    if !place.sees '\x22' then place.fail .expectingName
    else do
      let (name, next) ← readString place.position [] 0 (place.position + 1) (place.rest.drop 1)
      let colon := next.skipBlanks
      if !colon.sees ':' then colon.fail .expectingColon
      else
        let (value, next) ← readValue bound depth (colon.skip 1).skipBlanks
        let next := next.skipBlanks
        if next.sees '\x7d' then pure (.object ((name, value) :: found).reverse, next.skip 1)
        else if !next.sees ',' then next.fail .expectingComma
        else readMembers bound depth ((name, value) :: found) (next.skip 1).skipBlanks

/-- Reads the items of an array, after those found, the last one first. -/
def readItems (bound depth : Nat) (found : List Json) (place : Place) : Except ReadError (Json × Place) :=
  match bound with
  | 0 => throw .tooDeep
  | bound + 1 => do
    let (value, next) ← readValue bound depth place
    let next := next.skipBlanks
    if next.sees ']' then pure (.array (value :: found).reverse, next.skip 1)
    else if !next.sees ',' then next.fail .expectingComma
    else readItems bound depth (value :: found) (next.skip 1).skipBlanks

end

/-- Reads a text that holds one value. -/
def read (text : Text) : Except ReadError Json :=
  if text.head? = some (Codepoint.char '\ufeff') then throw (.malformed .byteOrderMark 0)
  else do
    let start : Place := { rest := text, position := 0 }
    let (value, next) ← readValue (2 * text.length + 2) depthLimit start.skipBlanks
    let next := next.skipBlanks
    if next.rest.isEmpty then pure value else next.fail .extraData

end Deadwood.Json
