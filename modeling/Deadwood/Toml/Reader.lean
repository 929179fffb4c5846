import Deadwood.Settings.Value

/-!
# Reading TOML

A reader for TOML documents.  A document is a sequence of statements: a key
with a value, or the header of a table or of a new element of an array of
tables.  Which tables a statement may still change is kept beside the data.
-/

namespace Deadwood.Toml

/-- A dotted key. -/
abbrev Key := List Text

/-- A key as it is shown in messages. -/
def showKey (key : Key) : Text :=
  match key with
  | [one] => "(" ++ Text.quoted one ++ ",)"
  | parts => "(" ++ Text.joinWith ", " (parts.map Text.quoted) ++ ")"

/-- Why a document is refused. -/
inductive ReadError where
  /-- The document is not well formed. -/
  | malformed (message : Text) (position : Nat)
  /-- A whole number has too many digits. -/
  | numberTooLong
  /-- Values are nested too deeply. -/
  | tooDeep

/-- A message with its place in a document. -/
def messageAt (document : Text) (message : Text) (position : Nat) : Text :=
  let before := document.take position
  let place : Text :=
    if document.length ≤ position then "end of document"
    else
      let line := before.countP (· = Codepoint.char '\n') + 1
      let column := (before.reverse.takeWhile (· ≠ Codepoint.char '\n')).length + 1
      "line " ++ Text.ofNat line ++ ", column " ++ Text.ofNat column
  message ++ " (at " ++ place ++ ")"

/-- What is left of a document, and how much of it is read. -/
structure Place where
  rest : Text
  position : Nat

namespace Place

def skip (place : Place) (n : Nat) : Place := { rest := place.rest.drop n, position := place.position + n }

/-- Whether a text is next. -/
def sees (place : Place) (text : String) : Bool := Text.startsWith place.rest text

/-- The place behind code points that pass a test. -/
def skipWhile (place : Place) (test : Codepoint → Bool) : Place := place.skip (place.rest.takeWhile test).length

def fail {α : Type} (place : Place) (message : Text) : Except ReadError α :=
  throw (.malformed message place.position)

end Place

def isSpace (c : Codepoint) : Bool := c = Codepoint.char ' ' || c = Codepoint.char '\t'

def isSpaceOrLine (c : Codepoint) : Bool := isSpace c || c = Codepoint.char '\n'

/-- The control characters, which no comment and no string on one line may hold. -/
def isIllegal (c : Codepoint) : Bool := (c.value < 32 && c.value ≠ 9) || c.value = 127

/-- The control characters that no string over several lines may hold. -/
def isIllegalInLines (c : Codepoint) : Bool := isIllegal c && c.value ≠ 10

def isBareKey : Codepoint → Bool
  | .char c => c.isAlphanum || c == '-' || c == '_'
  | .surrogate _ => false

/-- The part of a text before a given one, if that is found; `before` comes last first. -/
def partBefore? (stop : Text) (before : Text) : Text → Option Text
  | [] => none
  | c :: rest =>
    if Text.startsWith (c :: rest) stop then some before.reverse else partBefore? stop (c :: before) rest

/-- The place of a text further on, or the end if it is not needed; what is passed over must be legal. -/
def skipUntil (illegal : Codepoint → Bool) (needed : Bool) (stop : Text) (place : Place) : Except ReadError Place :=
  let check (passed : Text) : Except ReadError Place :=
    match passed.find? illegal with
    | some c =>
      (place.skip (passed.takeWhile (!illegal ·)).length).fail ("Found invalid character " ++ Text.quoted [c])
    | none => pure (place.skip passed.length)
  match partBefore? stop [] place.rest with
  | some passed => check passed
  | none =>
    if needed then (place.skip place.rest.length).fail ("Expected " ++ Text.quoted stop) else check place.rest

/-- The place behind a comment, if there is one. -/
def skipComment (place : Place) : Except ReadError Place :=
  if place.sees "#" then skipUntil isIllegal false "\n" (place.skip 1) else pure place

/-- The place behind blanks, line ends and comments. -/
def skipFiller : Nat → Place → Except ReadError Place
  | 0, place => pure place
  | bound + 1, place => do
    let next ← skipComment (place.skipWhile isSpaceOrLine)
    if next.position = place.position then pure place else skipFiller bound next

/-- The value of digits in base sixteen. -/
def hexNumber? (digits : Text) : Option Nat :=
  digits.foldlM (fun n c => match c with
    | .char c =>
      if '0' ≤ c && c ≤ '9' then some (16 * n + (c.toNat - 48))
      else if 'a' ≤ c && c ≤ 'f' then some (16 * n + (c.toNat - 87))
      else if 'A' ≤ c && c ≤ 'F' then some (16 * n + (c.toNat - 55))
      else none
    | .surrogate _ => none) 0

/-- The code point that an escape by number stands for, at the place of its digits. -/
def hexEscape (place : Place) (width : Nat) : Except ReadError (Text × Place) :=
  let digits := place.rest.take width
  match if digits.length = width then hexNumber? digits else none with
  | none => place.fail "Invalid hex value"
  | some n =>
    let next := place.skip width
    match Codepoint.ofNat? n with
    | some (.char c) => pure ([.char c], next)
    | _ => next.fail "Escaped character is not a Unicode scalar value"

/-- The short escapes. -/
def shortEscape? : Codepoint → Option Codepoint
  | .char c =>
    if c == 'b' then some (.char '\x08')
    else if c == 't' then some (.char '\t')
    else if c == 'n' then some (.char '\n')
    else if c == 'f' then some (.char '\x0c')
    else if c == 'r' then some (.char '\r')
    else if c == '\x22' || c == '\\' then some (.char c)
    else none
  | .surrogate _ => none

/-- What an escape stands for, and the place behind it; `several` if the string may hold line ends. -/
def readEscape (several : Bool) (place : Place) : Except ReadError (Text × Place) :=
  let after := place.skip 2
  match place.rest.drop 1 with
  | [] => after.fail "Unescaped '\\' in a string"
  | c :: _ =>
    if several && isSpaceOrLine c then
      if c = Codepoint.char '\n' then pure ([], after.skipWhile isSpaceOrLine)
      else
        let next := after.skipWhile isSpace
        match next.rest with
        | [] => pure ([], next)
        | d :: _ =>
          if d = Codepoint.char '\n' then pure ([], (next.skip 1).skipWhile isSpaceOrLine)
          else next.fail "Unescaped '\\' in a string"
    else if c = Codepoint.char 'u' then hexEscape after 4
    else if c = Codepoint.char 'U' then hexEscape after 8
    else match shortEscape? c with
      | some d => pure ([d], after)
      | none => after.fail "Unescaped '\\' in a string"

/-- Reads the rest of a string in double quotes; `several` if it may hold line ends.  `found` comes last first. -/
def readBasic (several : Bool) : Nat → Text → Place → Except ReadError (Text × Place)
  | 0, _, place => place.fail "Unterminated string"
  | bound + 1, found, place =>
    match place.rest with
    | [] => place.fail "Unterminated string"
    | c :: _ =>
      if c = Codepoint.char '\x22' then
        if !several then pure (found.reverse, place.skip 1)
        else if place.sees "\x22\x22\x22" then pure (found.reverse, place.skip 3)
        else readBasic several bound (c :: found) (place.skip 1)
      else if c = Codepoint.char '\\' then do
        let (text, next) ← readEscape several place
        readBasic several bound (text.reverse ++ found) next
      else if (if several then isIllegalInLines c else isIllegal c) then
        place.fail ("Illegal character " ++ Text.quoted [c])
      else readBasic several bound (c :: found) (place.skip 1)

/-- Reads a string in double quotes on one line. -/
def readBasicLine (place : Place) : Except ReadError (Text × Place) :=
  readBasic false (place.rest.length + 1) [] (place.skip 1)

/-- Reads a string in single quotes on one line. -/
def readLiteralLine (place : Place) : Except ReadError (Text × Place) := do
  let start := place.skip 1
  let stop ← skipUntil isIllegal true "\x27" start
  pure (start.rest.take (stop.position - start.position), stop.skip 1)

/-- Up to two further quotes before the closing ones belong to the string. -/
def extraQuotes (quote : String) (text : Text) (place : Place) : Text × Place :=
  if !place.sees quote then (text, place)
  else
    let next := place.skip 1
    if !next.sees quote then (text ++ quote, next) else (text ++ quote ++ quote, next.skip 1)

/-- Reads a string over several lines. -/
def readLines (literal : Bool) (place : Place) : Except ReadError (Text × Place) := do
  let opened := place.skip 3
  let start := if opened.sees "\n" then opened.skip 1 else opened
  if literal then
    let stop ← skipUntil isIllegalInLines true "\x27\x27\x27" start
    pure (extraQuotes "\x27" (start.rest.take (stop.position - start.position)) (stop.skip 3))
  else
    let (text, next) ← readBasic true (start.rest.length + 1) [] start
    pure (extraQuotes "\x22" text next)

/-- Reads one part of a key. -/
def readKeyPart (place : Place) : Except ReadError (Text × Place) :=
  match place.rest with
  | [] => place.fail "Invalid initial character for a key part"
  | c :: _ =>
    if isBareKey c then
      let name := place.rest.takeWhile isBareKey
      pure (name, place.skip name.length)
    else if c = Codepoint.char '\x27' then readLiteralLine place
    else if c = Codepoint.char '\x22' then readBasicLine place
    else place.fail "Invalid initial character for a key part"

/-- Reads the further parts of a key. -/
def readKeyRest : Nat → Key → Place → Except ReadError (Key × Place)
  | 0, key, place => pure (key, place)
  | bound + 1, key, place =>
    if !place.sees "." then pure (key, place)
    else do
      let (part, next) ← readKeyPart ((place.skip 1).skipWhile isSpace)
      readKeyRest bound (key ++ [part]) (next.skipWhile isSpace)

/-- Reads a key. -/
def readKey (place : Place) : Except ReadError (Key × Place) := do
  let (part, next) ← readKeyPart place
  readKeyRest place.rest.length [part] (next.skipWhile isSpace)

/-! ## Numbers, dates and times -/

/-- Digits that pass a test, with single underscores between them: the digits and the width. -/
def digitsWith (test : Char → Bool) : Text → Text × Nat
  | .char c :: .char d :: rest =>
    if test c then
      if d == '_' then
        match rest with
        | .char e :: _ =>
          if test e then
            let (more, width) := digitsWith test rest
            (.char c :: more, width + 2)
          else ([.char c], 1)
        | _ => ([.char c], 1)
      else
        let (more, width) := digitsWith test (.char d :: rest)
        (.char c :: more, width + 1)
    else ([], 0)
  | .char c :: _ => if test c then ([.char c], 1) else ([], 0)
  | _ => ([], 0)

/-- The number that digits in a base stand for. -/
def numberIn (base : Nat) (digits : Text) : Nat :=
  digits.foldl (fun n c => base * n + ((hexNumber? [c]).getD 0)) 0

/-- A number in base sixteen, two or eight, and its width. -/
def basedNumber? (text : Text) : Option (Nat × Nat) :=
  let read (base : Nat) (test : Char → Bool) : Option (Nat × Nat) :=
    let (digits, width) := digitsWith test (text.drop 2)
    if width = 0 then none else some (numberIn base digits, width + 2)
  if Text.startsWith text "0x" then
    read 16 fun c => c.isDigit || ('a' ≤ c && c ≤ 'f') || ('A' ≤ c && c ≤ 'F')
  else if Text.startsWith text "0b" then read 2 fun c => c == '0' || c == '1'
  else if Text.startsWith text "0o" then read 8 fun c => '0' ≤ c && c ≤ '7'
  else none

/-- The digits of an exponent with its sign, and its width. -/
def exponent? (text : Text) : Option (Int × Nat) :=
  match text with
  | .char e :: rest =>
    if e == 'e' || e == 'E' then
      let negative := Text.startsWith rest "-"
      let signed := negative || Text.startsWith rest "+"
      let (digits, width) := digitsWith Char.isDigit (if signed then rest.drop 1 else rest)
      if width = 0 then none
      else
        let size : Int := numberIn 10 digits
        some (if negative then -size else size, width + 1 + (if signed then 1 else 0))
    else none
  | _ => none

/-- A decimal number and its width. -/
def decimalNumber? (text : Text) : Option (Except ReadError Value × Nat) :=
  let negative := Text.startsWith text "-"
  let signed := negative || Text.startsWith text "+"
  let body := if signed then text.drop 1 else text
  let (whole, width) :=
    if Text.startsWith body "0" then (body.take 1, 1) else digitsWith Char.isDigit body
  if width = 0 then none
  else
    let start := width + (if signed then 1 else 0)
    let after := body.drop width
    let (fraction, fractionWidth) := match after with
      | .char c :: rest =>
        if c == '.' then
          let (digits, width) := digitsWith Char.isDigit rest
          if width = 0 then ([], 0) else (digits, width + 1)
        else ([], 0)
      | _ => ([], 0)
    let (power, powerWidth) := (exponent? (after.drop fractionWidth)).getD (0, 0)
    if fractionWidth = 0 && powerWidth = 0 then
      let size : Int := numberIn 10 whole
      some (if 4300 < whole.length then throw .numberTooLong else pure (.int (if negative then -size else size)), start)
    else
      let number := Binary64.ofDecimal negative (numberIn 10 (whole ++ fraction)) (power - fraction.length)
      some (pure (.float number), start + fractionWidth + powerWidth)

/-- A number of exactly two digits at the front, within bounds. -/
def twoDigits? (low high : Nat) (text : Text) : Option (Nat × Text) :=
  match text with
  | .char a :: .char b :: rest =>
    if a.isDigit && b.isDigit then
      let n := (a.toNat - 48) * 10 + (b.toNat - 48)
      if low ≤ n && n ≤ high then some (n, rest) else none
    else none
  | _ => none

/-- A given code point at the front. -/
def expect? (c : Char) : Text → Option Text
  | d :: rest => if d = Codepoint.char c then some rest else none
  | [] => none

/-- A time at the front. -/
def clock? (text : Text) : Option (Clock × Text) := do
  let (hour, rest) ← twoDigits? 0 23 text
  let (minute, rest) ← twoDigits? 0 59 (← expect? ':' rest)
  let (second, rest) ← twoDigits? 0 59 (← expect? ':' rest)
  let isDigit := fun (c : Codepoint) => match c with
    | .char c => c.isDigit
    | .surrogate _ => false
  match rest with
  | .char '.' :: more =>
    match more.takeWhile isDigit with
    | [] => pure ({ hour, minute, second, micros := 0 }, rest)
    | digits =>
      let six := digits.take 6
      let micros := numberIn 10 six * Nat.pow 10 (6 - six.length)
      pure ({ hour, minute, second, micros }, more.drop digits.length)
  | _ => pure ({ hour, minute, second, micros := 0 }, rest)

/-- A date at the front. -/
def date? (text : Text) : Option (Date × Text) := do
  let (high, rest) ← twoDigits? 0 99 text
  let (low, rest) ← twoDigits? 0 99 rest
  let (month, rest) ← twoDigits? 1 12 (← expect? '-' rest)
  let (day, rest) ← twoDigits? 1 31 (← expect? '-' rest)
  pure ({ year := high * 100 + low, month, day }, rest)

/-- An offset at the front, in minutes. -/
def offset? (text : Text) : Option (Int × Text) :=
  match text with
  | .char c :: rest =>
    if c == 'Z' || c == 'z' then some (0, rest)
    else if c == '+' || c == '-' then do
      let (hours, rest) ← twoDigits? 0 23 rest
      let (minutes, rest) ← twoDigits? 0 59 (← expect? ':' rest)
      let size : Int := hours * 60 + minutes
      pure (if c == '-' then -size else size, rest)
    else none
  | _ => none

/-- A date, perhaps with a time and an offset, at the front; whether the calendar has the date. -/
def moment? (text : Text) : Option (Moment × Bool × Text) := do
  let (date, rest) ← date? text
  let timed : Option (Clock × Text) := match rest with
    | .char c :: more => if c == 'T' || c == 't' || c == ' ' then clock? more else none
    | _ => none
  match timed with
  | none => pure (.date date, date.isValid, rest)
  | some (clock, rest) =>
    match offset? rest with
    | some (offset, rest) => pure (.both date clock (some offset), date.isValid, rest)
    | none => pure (.both date clock none, date.isValid, rest)

/-! ## Tables -/

/-- The value of a name. -/
def lookup (name : Text) (members : List (Text × Value)) : Option Value := (members.find? (·.1 = name)).map (·.2)

/-- A value put under a name, in its old place if it has one. -/
def assign (name : Text) (value : Value) : List (Text × Value) → List (Text × Value)
  | [] => [(name, value)]
  | (known, old) :: rest =>
    if known = name then (name, value) :: rest else (known, old) :: assign name value rest

/-- Changes the table under a key, which is made if it is missing; inside arrays the last element is meant, if they are
open.  There may be no table under the key. -/
def changeTable (openArrays : Bool) (change : List (Text × Value) → Option (List (Text × Value))) :
    Key → List (Text × Value) → Option (List (Text × Value))
  | [], members => change members
  | name :: key, members =>
    match lookup name members with
    | none => (changeTable openArrays change key []).map fun inner => assign name (.table inner) members
    | some (.table inner) =>
      (changeTable openArrays change key inner).map fun inner => assign name (.table inner) members
    | some (.list items) =>
      if openArrays then
        match items.getLast? with
        | some (.table inner) =>
          (changeTable openArrays change key inner).map fun inner =>
            assign name (.list (items.dropLast ++ [.table inner])) members
        | _ => none
      else none
    | some _ => none

/-- A value put under a new name. -/
def define (name : Text) (value : Value) (members : List (Text × Value)) : Option (List (Text × Value)) :=
  if (lookup name members).isSome then none else some (members ++ [(name, value)])

/-- An empty table added to the array under a name. -/
def appendTable (name : Text) (members : List (Text × Value)) : Option (List (Text × Value)) :=
  match lookup name members with
  | none => some (members ++ [(name, .list [.table []])])
  | some (.list items) => some (assign name (.list (items ++ [.table []])) members)
  | some _ => none

/-- What is known of the tables beside their data. -/
structure Marks where
  /-- Keys of which nothing may be changed, nor below them. -/
  frozen : List Key := []
  /-- Keys whose tables may not be opened by a header. -/
  closed : List Key := []
  /-- Keys that are closed as soon as a header follows. -/
  pending : List Key := []

namespace Marks

def isFrozen (marks : Marks) (key : Key) : Bool := marks.frozen.any (·.isPrefixOf key) && key ≠ []

def isClosed (marks : Marks) (key : Key) : Bool := marks.closed.contains key

/-- All marks at and below a key are taken off. -/
def release (marks : Marks) (key : Key) : Marks :=
  { marks with
    frozen := marks.frozen.filter (!key.isPrefixOf ·)
    closed := marks.closed.filter (!key.isPrefixOf ·) }

def settle (marks : Marks) : Marks := { marks with closed := marks.pending ++ marks.closed, pending := [] }

end Marks

def isContainer : Value → Bool
  | .list _ | .table _ => true
  | _ => false

/-! ## Values -/

/-- Reads a value that is neither an array nor a table. -/
def readScalar (place : Place) : Except ReadError (Value × Place) :=
  if place.sees "\x22\x22\x22" then (readLines false place).map fun (t, next) => (.text t, next)
  else if place.sees "\x22" then (readBasicLine place).map fun (t, next) => (.text t, next)
  else if place.sees "\x27\x27\x27" then (readLines true place).map fun (t, next) => (.text t, next)
  else if place.sees "\x27" then (readLiteralLine place).map fun (t, next) => (.text t, next)
  else if place.sees "true" then pure (.bool true, place.skip 4)
  else if place.sees "false" then pure (.bool false, place.skip 5)
  else match moment? place.rest with
    | some (moment, valid, rest) =>
      if valid then pure (.moment moment, place.skip (place.rest.length - rest.length))
      else place.fail "Invalid date or datetime"
    | none =>
      match clock? place.rest with
      | some (clock, rest) => pure (.moment (.clock clock), place.skip (place.rest.length - rest.length))
      | none =>
        match basedNumber? place.rest with
        | some (n, width) => pure (.int n, place.skip width)
        | none =>
          match decimalNumber? place.rest with
          | some (value, width) => value.map fun value => (value, place.skip width)
          | none =>
            if place.sees "inf" || place.sees "+inf" then
              pure (.float (.infinite false), place.skip (if place.sees "+" then 4 else 3))
            else if place.sees "-inf" then pure (.float (.infinite true), place.skip 4)
            else if place.sees "nan" then pure (.float .nan, place.skip 3)
            else if place.sees "+nan" || place.sees "-nan" then pure (.float .nan, place.skip 4)
            else place.fail "Invalid value"

/-- The deepest nesting of values, in which an array counts two and a table in braces three. -/
def depthLimit : Nat := 986

mutual

/-- Reads a value; `depth` bounds what is inside it, and `bound` limits the steps. -/
def readValue (bound depth : Nat) (place : Place) : Except ReadError (Value × Place) :=
  match bound with
  | 0 => throw .tooDeep
  | bound + 1 =>
    if place.sees "[" then
      if depth < 2 then throw .tooDeep
      else do
        let inside ← skipFiller (place.rest.length + 1) (place.skip 1)
        if inside.sees "]" then pure (.list [], inside.skip 1) else readItems bound (depth - 2) [] inside
    else if place.sees "\x7b" then
      if depth < 3 then throw .tooDeep
      else
        let inside := (place.skip 1).skipWhile isSpace
        if inside.sees "\x7d" then pure (.table [], inside.skip 1)
        else readMembers bound (depth - 3) [] [] inside
    else readScalar place

/-- Reads the items of an array, after those found, the last one first. -/
def readItems (bound depth : Nat) (found : List Value) (place : Place) : Except ReadError (Value × Place) :=
  match bound with
  | 0 => throw .tooDeep
  | bound + 1 => do
    let (value, next) ← readValue bound depth place
    let next ← skipFiller (next.rest.length + 1) next
    if next.sees "]" then pure (.list (value :: found).reverse, next.skip 1)
    else if !next.sees "," then next.fail "Unclosed array"
    else
      let next ← skipFiller (next.rest.length + 1) (next.skip 1)
      if next.sees "]" then pure (.list (value :: found).reverse, next.skip 1)
      else readItems bound depth (value :: found) next

/-- Reads the members of a table in braces, after those found. -/
def readMembers (bound depth : Nat) (frozen : List Key) (found : List (Text × Value)) (place : Place) :
    Except ReadError (Value × Place) :=
  match bound with
  | 0 => throw .tooDeep
  | bound + 1 => do
    let (key, value, next) ← readPair bound depth place
    if frozen.any (·.isPrefixOf key) then
      next.fail ("Cannot mutate immutable namespace " ++ showKey key)
    else
      let stem := key.getLastD []
      match changeTable false some key.dropLast found with
      | none => next.fail "Cannot overwrite a value"
      | some _ =>
        match changeTable false (define stem value) key.dropLast found with
        | none => next.fail ("Duplicate inline table key " ++ Text.quoted stem)
        | some members =>
          let next := next.skipWhile isSpace
          if next.sees "\x7d" then pure (.table members, next.skip 1)
          else if !next.sees "," then next.fail "Unclosed inline table"
          else
            let frozen := if isContainer value then key :: frozen else frozen
            readMembers bound depth frozen members ((next.skip 1).skipWhile isSpace)

/-- Reads a key with its value. -/
def readPair (bound depth : Nat) (place : Place) : Except ReadError (Key × Value × Place) :=
  match bound with
  | 0 => throw .tooDeep
  | bound + 1 => do
    let (key, next) ← readKey place
    if !next.sees "=" then next.fail "Expected '=' after a key in a key/value pair"
    else
      let (value, next) ← readValue bound depth ((next.skip 1).skipWhile isSpace)
      pure (key, value, next)

end

/-! ## Documents -/

/-- A document read so far. -/
structure Document where
  data : List (Text × Value) := []
  marks : Marks := {}
  /-- The table that keys belong to. -/
  header : Key := []

/-- Reads a key with its value into a document. -/
def readAssignment (bound : Nat) (document : Document) (place : Place) : Except ReadError (Document × Place) := do
  let (key, value, next) ← readPair bound depthLimit place
  let parents := (List.range (key.length - 1)).map fun n => document.header ++ key.take (n + 1)
  match parents.find? document.marks.isClosed with
  | some parent => next.fail ("Cannot redefine namespace " ++ showKey parent)
  | none =>
    let parent := document.header ++ key.dropLast
    if document.marks.isFrozen parent then next.fail ("Cannot mutate immutable namespace " ++ showKey parent)
    else match changeTable true (define (key.getLastD []) value) parent document.data with
      | none => next.fail "Cannot overwrite a value"
      | some data =>
        let frozen := if isContainer value then (document.header ++ key) :: document.marks.frozen
          else document.marks.frozen
        let marks := { document.marks with pending := parents ++ document.marks.pending, frozen }
        pure ({ document with data, marks }, next)

/-- Reads the header of a table. -/
def readTableHeader (document : Document) (place : Place) : Except ReadError (Document × Place) := do
  let marks := document.marks.settle
  let (key, next) ← readKey ((place.skip 1).skipWhile isSpace)
  if marks.isClosed key || marks.isFrozen key then
    next.fail ("Cannot declare " ++ showKey key ++ " twice")
  else match changeTable true some key document.data with
    | none => next.fail "Cannot overwrite a value"
    | some data =>
      if !next.sees "]" then next.fail "Expected ']' at the end of a table declaration"
      else pure ({ data, marks := { marks with closed := key :: marks.closed }, header := key }, next.skip 1)

/-- Reads the header of a new element of an array of tables. -/
def readArrayHeader (document : Document) (place : Place) : Except ReadError (Document × Place) := do
  let marks := document.marks.settle
  let (key, next) ← readKey ((place.skip 2).skipWhile isSpace)
  if marks.isFrozen key then next.fail ("Cannot mutate immutable namespace " ++ showKey key)
  else
    let marks := marks.release key
    match changeTable true (appendTable (key.getLastD [])) key.dropLast document.data with
    | none => next.fail "Cannot overwrite a value"
    | some data =>
      if !next.sees "]]" then next.fail "Expected ']]' at the end of an array declaration"
      else pure ({ data, marks := { marks with closed := key :: marks.closed }, header := key }, next.skip 2)

/-- The end of a statement, where the document ends or goes on in the next line. -/
def endStatement (goOn : Place → Except ReadError Document) (document : Document) (place : Place) :
    Except ReadError Document := do
  let next ← skipComment (place.skipWhile isSpace)
  match next.rest with
  | [] => pure document
  | c :: _ =>
    if c = Codepoint.char '\n' then goOn (next.skip 1)
    else next.fail "Expected newline or end of document after a statement"

/-- Reads statements; `bound` limits their number. -/
def readStatements : Nat → Document → Place → Except ReadError Document
  | 0, document, _ => pure document
  | bound + 1, document, place => do
    let place := place.skipWhile isSpace
    match place.rest with
    | [] => pure document
    | c :: _ =>
      if c = Codepoint.char '\n' then readStatements bound document (place.skip 1)
      else
        let (document, next) ←
          if isBareKey c || c = Codepoint.char '\x22' || c = Codepoint.char '\x27' then
            readAssignment (2 * place.rest.length + 4) document place
          else if place.sees "[[" then readArrayHeader document place
          else if place.sees "[" then readTableHeader document place
          else if c = Codepoint.char '#' then pure (document, place)
          else place.fail "Invalid statement"
        endStatement (readStatements bound document) document next

/-- A text in which carriage returns before line feeds are dropped; `found` comes last first. -/
def dropReturns (found : Text) : Text → Text
  | [] => found.reverse
  | c :: rest =>
    if c = Codepoint.char '\r' && rest.head? = some (Codepoint.char '\n') then dropReturns found rest
    else dropReturns (c :: found) rest

/-- Reads a document. -/
def read (text : Text) : Except ReadError (List (Text × Value)) := do
  let text := dropReturns [] text
  let document ← readStatements (text.length + 1) {} { rest := text, position := 0 }
  pure document.data

/-- What is wrong with a document, and where. -/
def describe (text message : Text) (position : Nat) : Text := messageAt (dropReturns [] text) message position

end Deadwood.Toml
