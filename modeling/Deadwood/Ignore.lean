import Deadwood.Wildcard
import Deadwood.Text.Blank
import Deadwood.Failure

/-!
# Ignore patterns

A list of patterns in the manner of an ignore file decides whether a path is
withheld.  A pattern names the path itself or a folder above it; among the
patterns that match, the last one that names the path itself decides, or else
the last one that matches.
-/

namespace Deadwood.Ignore

/-- What a pattern asks of a path, piece by piece from its front. -/
inductive Piece where
  /-- Any number of folders, each with its slash. -/
  | folders
  /-- A slash and anything behind it, or nothing. -/
  | below
  | slash
  | one (c : Codepoint)
  | bracket (bracket : Bracket)
  /-- One code point other than a slash. -/
  | any
  /-- Any number of code points other than slashes. -/
  | run
  /-- A slash, which makes the match one of a folder above, or the end. -/
  | close
  /-- A slash that ends the pattern; whether the match is one of a folder above. -/
  | inside (folder : Bool)
  deriving DecidableEq, Repr

/-- A pattern ready for matching. -/
inductive Form where
  /-- Every path. -/
  | everything
  /-- Every path in a folder; whether the match is one of a folder above. -/
  | nested (folder : Bool)
  | pieces (pieces : List Piece)
  deriving DecidableEq, Repr

/-- A pattern that withholds a path, or takes back what an earlier one withheld. -/
structure Pattern where
  withholds : Bool
  form : Form
  deriving DecidableEq, Repr

/-- The longest run that passes a test, then shorter ones, until what follows matches. -/
def longest (test : Codepoint → Bool) (next : Text → Option Bool) : Text → Option Bool
  | [] => next []
  | c :: rest => if test c then longest test next rest <|> next (c :: rest) else next (c :: rest)

/-- Whether only a final line break is left, if anything. -/
def atEnd (text : Text) : Bool := text = [] || text = [Codepoint.char '\n']

/-- Matches pieces at the front of a path; the answer tells whether the match is one of a folder above. -/
def matchPieces : List Piece → Text → Option Bool
  | [], _ => some false
  | piece :: more, text =>
    match piece with
    | .folders =>
      let slashed := fun (t : Text) => match t with
        | c :: rest => if c = Codepoint.char '/' then matchPieces more rest else none
        | [] => none
      (match text with
        | c :: rest => if c = Codepoint.char '\n' then none else longest (· ≠ Codepoint.char '\n') slashed rest
        | [] => none) <|> matchPieces more text
    | .below =>
      (match text with
        | c :: d :: rest =>
          if c = Codepoint.char '/' && d ≠ Codepoint.char '\n' then
            longest (· ≠ Codepoint.char '\n') (matchPieces more) rest
          else none
        | _ => none) <|> matchPieces more text
    | .run => longest (· ≠ Codepoint.char '/') (matchPieces more) text
    | .close =>
      match text with
      | c :: _ => if c = Codepoint.char '/' then some true else if atEnd text then some false else none
      | [] => some false
    | .inside folder => if text.head? = some (Codepoint.char '/') then some folder else none
    | .slash | .one _ | .bracket _ | .any =>
      match text with
      | [] => none
      | c :: rest =>
        let fits : Bool := match piece with
          | .slash => c == Codepoint.char '/'
          | .one d => c == d
          | .bracket bracket => bracket.matches c
          | _ => c != Codepoint.char '/'
        if fits then matchPieces more rest else none

/-- Matches a path; the answer tells whether the match is one of a folder above. -/
def Form.match? : Form → Text → Option Bool
  | .everything, path => if path.any (· ≠ Codepoint.char '\n') then some false else none
  | .nested folder, path => if path.any (· = Codepoint.char '/') then some folder else none
  | .pieces list, path => matchPieces list path

/-- The ranges in a bracket; a hyphen between two code points makes a range, which must not be reversed. -/
def bracketRanges : Text → Except Fault (List (Codepoint × Codepoint))
  | low :: hyphen :: high :: rest =>
    if hyphen = Codepoint.char '-' then
      if high.value < low.value then throw .badRange
      else do pure ((low, high) :: (← bracketRanges rest))
    else do pure ((low, low) :: (← bracketRanges (hyphen :: high :: rest)))
  | c :: rest => do pure ((c, c) :: (← bracketRanges rest))
  | [] => pure []

/-- What can be wrong with a segment. -/
inductive SegmentFault where
  | openBracket
  | fault (fault : Fault)

/-- The inside of a bracket, whether it is negated, and its width with the closing mark. -/
def bracketInside (text : Text) : Option (Bool × Text × Nat) :=
  let close := Codepoint.char ']'
  let negated := text.head? = some (Codepoint.char '!') || text.head? = some (Codepoint.char '^')
  let head := if negated then 1 else 0
  let first := if (text.drop head).head? = some close then head + 1 else head
  let body := (text.drop first).takeWhile (· ≠ close)
  let width := first + body.length
  if width < text.length then some (negated, (text.take width).drop head, width + 1) else none

/-- Reads a segment; brackets are checked once the whole pattern is read. -/
def segmentPieces : Nat → Text → Except SegmentFault (List (Except (Bool × Text) Piece))
  | _, [] => pure []
  | skip + 1, _ :: rest => segmentPieces skip rest
  | 0, c :: rest =>
    if c = Codepoint.char '\\' then
      match rest with
      | [] => throw (.fault .badIgnorePattern)
      | d :: _ => do pure (.ok (.one d) :: (← segmentPieces 1 rest))
    else if c = Codepoint.char '*' then do pure (.ok .run :: (← segmentPieces 0 rest))
    else if c = Codepoint.char '?' then do pure (.ok .any :: (← segmentPieces 0 rest))
    else if c = Codepoint.char '[' then
      match bracketInside rest with
      | some (negated, inside, width) => do
        pure (.error (negated, inside) :: (← segmentPieces width rest))
      | none => throw .openBracket
    else do pure (.ok (.one c) :: (← segmentPieces 0 rest))

def doubleStar : Text := "**"

/-- The segments of a pattern from the root down; a pattern with one name only is looked for at any depth. -/
def anchorSegments : List Text → List Text
  | [] :: rest => rest
  | [one] => if one = doubleStar then [one] else [doubleStar, one]
  | [one, []] => if one = doubleStar then [one, []] else [doubleStar, one, []]
  | raw => raw

/-- A closing slash asks for what is inside. -/
def closeSegments (segments : List Text) : List Text :=
  if segments.getLast? = some [] then segments.dropLast ++ [doubleStar] else segments

/-- Pairs of stars in a row count once. -/
def collapseStars (segments : List Text) : List Text :=
  segments.foldr (fun segment later =>
    if segment = doubleStar && later.head? = some doubleStar then later else segment :: later) []

/-- The segments of a pattern in a uniform shape, and whether it names a folder only. -/
def normalSegments (pattern : Text) : Option (List Text × Bool) :=
  let raw := Text.splitOn '/' pattern
  if anchorSegments raw = [] then none
  else some (collapseStars (closeSegments (anchorSegments raw)), raw.getLast? = some [])

/-- The pieces of segments: whether one is the first, and whether a name came before. -/
def piecesOf (folderOnly : Bool) : Bool → Bool → List Text →
    Except SegmentFault (List (Except (Bool × Text) Piece))
  | _, _, [] => pure []
  | first, named, segment :: more => do
    if segment = doubleStar then
      if first then pure (.ok .folders :: (← piecesOf folderOnly false false more))
      else if more = [] then pure [.ok (.inside folderOnly)]
      else pure (.ok .below :: (← piecesOf folderOnly false true more))
    else
      let lead : List (Except (Bool × Text) Piece) := if named then [.ok .slash] else []
      let body ← if segment = ("*" : Text) then pure [.ok .any, .ok .run] else segmentPieces 0 segment
      let tail : List (Except (Bool × Text) Piece) := if more = [] then [.ok .close] else []
      pure (lead ++ body ++ tail ++ (← piecesOf folderOnly false true more))

/-- Reads a bracket that was left unread. -/
def finishPiece : Except (Bool × Text) Piece → Except Fault Piece
  | .ok piece => pure piece
  | .error (negated, inside) => do pure (.bracket { negated, ranges := ← bracketRanges inside })

/-- What segments ask of a path; a bracket that is not closed makes them say nothing. -/
def formOf (segments : List Text) (folderOnly : Bool) : Except Fault (Option Form) :=
  let star : Text := "*"
  if segments = [doubleStar] then pure (some (if folderOnly then .nested true else .everything))
  else if segments = [doubleStar, star] then pure (some .everything)
  else if segments = [doubleStar, star, doubleStar] then pure (some (.nested folderOnly))
  else match piecesOf folderOnly true false segments with
    | .error .openBracket => pure none
    | .error (.fault fault) => throw fault
    | .ok pieces => do pure (some (.pieces (← pieces.mapM finishPiece)))

/-- Reads a pattern; some patterns say nothing. -/
def parsePattern (line : Text) : Except Fault (Option Pattern) :=
  if Text.startsWith line "#" || line = ("/" : Text) then pure none
  else
    let withholds := !Text.startsWith line "!"
    match normalSegments (if withholds then line else line.drop 1) with
    | none => throw .badIgnorePattern
    | some (segments, folderOnly) => do
      let form ← formOf segments folderOnly
      pure (form.map fun form => { withholds, form })

/-- The patterns of a list of lines; blank lines are passed over. -/
def parsePatterns (lines : List Text) : Except Fault (List Pattern) := do
  let read ← ((lines.map Text.trim).filter (· ≠ [])).mapM parsePattern
  pure (read.filterMap id)

/-- A path without one slash, or else one `./`, at its front. -/
def relativePath (path : Text) : Text :=
  if Text.startsWith path "/" then path.drop 1 else if Text.startsWith path "./" then path.drop 2 else path

/-- What patterns decide: the last match of the path itself wins, or else the last match. -/
def decides (patterns : List Pattern) (path : Text) : Bool :=
  let found := patterns.filterMap fun pattern =>
    (pattern.form.match? path).map fun folder => (pattern.withholds, folder)
  match (found.filter (!·.2)).getLast?, found.getLast? with
  | some (withholds, _), _ => withholds
  | none, some (withholds, _) => withholds
  | none, none => false

/-- Whether a path is withheld by a list of lines. -/
def isIgnored (path : Text) (lines : List Text) : Except Fault Bool := do
  pure (decides (← parsePatterns lines) (relativePath path))

end Deadwood.Ignore
