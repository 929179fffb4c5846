import Deadwood.Reference

/-!
# Stylesheets

The references of a stylesheet are the arguments of `@import` and `url(...)`.
They are found by their form alone, wherever they stand; computed paths and
addresses outside the project are left out.
-/

namespace Deadwood.Stylesheet

/-- A quote around a reference. -/
def isQuote (c : Codepoint) : Bool := c = Codepoint.char '\x22' || c = Codepoint.char '\x27'

/-- What can stand in a reference: anything but quotes and a closing parenthesis. -/
def isInside (c : Codepoint) : Bool := !isQuote c && c != Codepoint.char ')'

/-- One optional quote passed over. -/
def skipQuote : Text → Text
  | [] => []
  | c :: rest => if isQuote c then rest else c :: rest

/-- A found reference and what follows it. -/
structure Found where
  raw : Text
  rest : Text

/-- The reference that stands at the front, if it is not empty. -/
def takeInside (text : Text) : Option Found :=
  match text.takeWhile isInside with
  | [] => none
  | raw => some { raw, rest := text.drop raw.length }

/-- The reference at the front, behind a quote if there is one. -/
def takeQuoted (text : Text) : Option Found := takeInside (skipQuote text) <|> takeInside text

/-- The argument of an `@import`: possibly in `url(`, possibly quoted, closed by what closes it. -/
def takeImported (text : Text) : Option Found :=
  let opened := if Text.startsWith text "url(" then takeQuoted (text.drop 4) else none
  (opened <|> takeQuoted text).map fun found =>
    let rest := skipQuote found.rest
    { found with rest := if Text.startsWith rest ")" then rest.drop 1 else rest }

/-- The same, from the last of some blanks on if it cannot be read behind them. -/
def takeBehindBlanks (take : Text → Option Found) (least : Nat) (text : Text) : Option Found :=
  let blanks := (text.takeWhile Codepoint.isBlank).length
  if blanks < least then none
  else take (text.drop blanks) <|> (if least < blanks then take (text.drop (blanks - 1)) else none)

/-- The argument of an `@import` behind options in parentheses, or without such options. -/
def takeOptioned (text : Text) : Option Found :=
  let behindOptions :=
    if Text.startsWith text "(" then
      match text.dropWhile (· != Codepoint.char ')') with
      | _ :: rest => takeBehindBlanks takeImported 0 rest
      | [] => none
    else none
  behindOptions <|> takeImported text

/-- What is behind an optional quote, blanks and the closing parenthesis, if they stand there. -/
def closeParenthesis (text : Text) : Option Text :=
  let close := fun (t : Text) =>
    match Text.trimStartBy Codepoint.isBlank t with
    | c :: rest => if c = Codepoint.char ')' then some rest else none
    | [] => none
  close (skipQuote text) <|> close text

/-- The argument of `url(`, which has to be closed. -/
def takeUrl (text : Text) : Option Found := do
  let found ← takeQuoted text
  let rest ← closeParenthesis found.rest
  pure { found with rest }

/-- The reference that begins at the front with `@import` or `url(`. -/
def takeReference (text : Text) : Option Found :=
  let imported := if Text.startsWith text "@import" then takeBehindBlanks takeOptioned 1 (text.drop 7) else none
  imported <|> (if Text.startsWith text "url(" then takeBehindBlanks takeUrl 0 (text.drop 4) else none)

/-- The references as written, from front to back; the next `skip` code points belong to the last one. -/
def rawReferences : Nat → Text → List Text
  | _, [] => []
  | skip + 1, _ :: rest => rawReferences skip rest
  | 0, c :: rest =>
    match takeReference (c :: rest) with
    | some found => found.raw :: rawReferences (rest.length - found.rest.length) rest
    | none => rawReferences 0 rest

/-- Whether a path is computed when the stylesheet is built. -/
def isComputed (raw : Text) : Bool :=
  raw.any fun c => c = Codepoint.char '\x7b' || c = Codepoint.char '$' || c = Codepoint.char '#'

/-- A letter of a scheme; case does not matter, and four further letters fold to ASCII ones. -/
def isSchemeLetter (c : Codepoint) : Bool :=
  match c with
  | .char c => c.isAlpha || [0x130, 0x131, 0x17F, 0x212A].contains c.toNat
  | .surrogate _ => false

/-- What a scheme holds after its first letter. -/
def isSchemePart (c : Codepoint) : Bool :=
  isSchemeLetter c || match c with
  | .char c => c.isDigit || c == '+' || c == '.' || c == '-'
  | .surrogate _ => false

/-- Whether a path begins with a scheme or with two slashes. -/
def isExternal (path : Text) : Bool :=
  Text.startsWith path "//" ||
    match path with
    | [] => false
    | c :: rest => isSchemeLetter c && (rest.dropWhile isSchemePart).head? == some (Codepoint.char ':')

/-- The path in a reference: without query, fragment and surrounding blanks. -/
def pathOf (raw : Text) : Text :=
  Text.trim (raw.takeWhile fun c => c != Codepoint.char '?' && c != Codepoint.char '#')

/-- The path that a reference names in the project, if it names one. -/
def projectPath (raw : Text) : Option Text :=
  if isComputed raw then none
  else
    let path := pathOf raw
    if path = [] || isExternal path || Text.startsWith path "/" then none else some path

/-- The paths that a stylesheet refers to, with repetitions. -/
def paths (text : Text) : List Text := (rawReferences 0 text).filterMap projectPath

/-- The references of a stylesheet. -/
def extract (path text : Text) : List Reference :=
  (paths text).map fun found => { origin := path, text := found, site := .styleImport }

end Deadwood.Stylesheet
