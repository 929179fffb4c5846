import Deadwood.Text.Blank
import Deadwood.Text.Lowercase
import Deadwood.Failure

/-!
# Markup

Tags in brackets change the style of what follows, and take no room.  A text
that is to be shown as it is has its tags escaped by backslashes.
-/

namespace Deadwood.Markup

def backslash : Codepoint := '\\'

def openBracket : Codepoint := '['

/-- Whether a tag may begin with a code point, after its bracket. -/
def startsTag : Codepoint → Bool
  | .char c => ('a' ≤ c && c ≤ 'z') || c == '#' || c == '/' || c == '@'
  | .surrogate _ => false

/-- What stands between the brackets of a tag at the front of a text, and what follows the tag. -/
def tag? : Text → Option (Text × Text)
  | c :: first :: rest =>
    if c = openBracket && startsTag first then
      let inside := rest.takeWhile fun d => d ≠ openBracket && d ≠ Codepoint.char ']'
      match rest.drop inside.length with
      | d :: after => if d = Codepoint.char ']' then some (first :: inside, after) else none
      | [] => none
    else none
  | _ => none

/-- A tag with its brackets. -/
def bracketed (inside : Text) : Text := openBracket :: inside ++ [Codepoint.char ']']

/-- Escapes the tags of a text; `bound` limits the steps. -/
def escapeTags : Nat → Text → Text
  | 0, text => text
  | _, [] => []
  | bound + 1, c :: rest =>
    let run := (c :: rest).takeWhile (· = backslash)
    match tag? ((c :: rest).drop run.length) with
    | some (inside, after) => run ++ run ++ backslash :: bracketed inside ++ escapeTags bound after
    | none => if run = [] then c :: escapeTags bound rest else run ++ escapeTags bound (rest.drop (run.length - 1))

/-- The markup that shows a text as it is; a backslash at the end is kept from escaping what follows. -/
def escape (text : Text) : Text :=
  let escaped := escapeTags text.length text
  if Text.endsWith escaped "\\" && !Text.endsWith escaped "\\\\" then escaped ++ [backslash] else escaped

/-- A piece of markup. -/
inductive Piece where
  | plain (text : Text)
  | tag (inside : Text)

/-- Plain text gathered so far, the last code point first, as a piece. -/
def gathered (before : Text) : List Piece := if before = [] then [] else [.plain before.reverse]

/-- The pieces of markup; `bound` limits the steps, and `before` is the plain text not yet in a piece. -/
def piecesFrom : Nat → Text → Text → List Piece
  | 0, before, _ => gathered before
  | _, before, [] => gathered before
  | bound + 1, before, c :: rest =>
    let run := (c :: rest).takeWhile (· = backslash)
    match tag? ((c :: rest).drop run.length) with
    | some (inside, after) =>
      let slashes := gathered (List.replicate (run.length / 2) backslash)
      let shown := if run.length % 2 = 1 then Piece.plain (bracketed inside) else .tag inside
      gathered before ++ slashes ++ shown :: piecesFrom bound [] after
    | none =>
      if run = [] then piecesFrom bound (c :: before) rest
      else piecesFrom bound (run ++ before) (rest.drop (run.length - 1))

/-- A text in which brackets are no longer escaped. -/
def unescapeBrackets : Text → Text
  | [] => []
  | c :: rest =>
    if c = backslash && rest.head? = some openBracket then unescapeBrackets rest else c :: unescapeBrackets rest

/-- Whether a code point moves the cursor and is never shown. -/
def isCursorControl (c : Codepoint) : Bool := [7, 8, 11, 12, 13].contains c.value

/-- The name by which a tag is closed. -/
def closingName (name : Text) : Text := Text.lower (Text.trim name)

/-- The text that pieces show; `opened` are the names of the open tags, the last one first. -/
def showPieces (opened : List Text) : List Piece → Except Fault Text
  | [] => pure []
  | .plain text :: rest => do pure (unescapeBrackets text ++ (← showPieces opened rest))
  | .tag inside :: rest =>
    let name := inside.takeWhile (· ≠ Codepoint.char '=')
    if Text.startsWith name "/" then
      let closed := closingName (name.drop 1)
      if closed = [] then
        match opened with
        | [] => throw .badMarkup
        | _ :: opened => showPieces opened rest
      else if opened.contains closed then showPieces (opened.erase closed) rest
      else throw .badMarkup
    else showPieces (closingName name :: opened) rest

/-- The text that markup shows. -/
def shown (markup : Text) : Except Fault Text := do
  let text ←
    if markup.any (· = openBracket) then showPieces [] (piecesFrom markup.length [] markup) else pure markup
  pure (text.filter (!isCursorControl ·))

end Deadwood.Markup
