import Deadwood.Text.Width
import Deadwood.Text.Blank

/-!
# Wrapping text

Text is laid out in lines of a given width.  Lines are broken between words; a
word that is wider than a line is folded or cut.
-/

namespace Deadwood.Wrap

/-- What happens to a word that is wider than a line. -/
inductive Overflow where
  /-- It goes on in the next line. -/
  | fold
  /-- It is cut, and an ellipsis shows that. -/
  | ellipsis
  deriving DecidableEq, Repr

/-- How a line stands in its width. -/
inductive Align where
  /-- As it is, without filling. -/
  | loose
  | left
  | center
  | right
  deriving DecidableEq, Repr

/-- The words of a text with their positions.  A word includes the blanks behind it, and the first one those before it;
`bound` limits the steps. -/
def wordsFrom : Nat → Nat → Text → List (Nat × Text)
  | 0, _, _ => []
  | bound + 1, start, text =>
    let lead := text.takeWhile Codepoint.isBlank
    let body := (text.drop lead.length).takeWhile (!·.isBlank)
    if body = [] then []
    else
      let tail := (text.drop (lead.length + body.length)).takeWhile Codepoint.isBlank
      let word := lead ++ body ++ tail
      (start, word) :: wordsFrom bound (start + word.length) (text.drop word.length)

/-- The words of a text with their positions. -/
def words (text : Text) : List (Nat × Text) := wordsFrom (text.length + 1) 0 text

/-- The positions at which the pieces of a folded word begin, and the width of the last piece. -/
def foldWord (start : Nat) : List Text → List Nat × Nat
  | [] => ([], 0)
  | [piece] => (if start = 0 then [] else [start], Text.cells piece)
  | piece :: rest =>
    let (breaks, width) := foldWord (start + piece.length) rest
    (if start = 0 then breaks else start :: breaks, width)

/-- The positions at which lines are broken, where `used` cells of the current line are taken. -/
def breaksFrom (width : Nat) (overflow : Overflow) (used : Nat) : List (Nat × Text) → List Nat
  | [] => []
  | (start, word) :: rest =>
    let size := Text.cells (Text.trimEndBy Codepoint.isBlank word)
    if used + size ≤ width then breaksFrom width overflow (used + Text.cells word) rest
    else if width < size then
      match overflow with
      | .fold =>
        let (breaks, used) := foldWord start (Text.chop width word)
        breaks ++ breaksFrom width overflow used rest
      | .ellipsis =>
        (if start = 0 then [] else [start]) ++ breaksFrom width overflow (Text.cells word) rest
    else if used ≠ 0 && start ≠ 0 then start :: breaksFrom width overflow (Text.cells word) rest
    else breaksFrom width overflow used rest

/-- A text cut at positions, counted from a first one. -/
def cutAt (first : Nat) (text : Text) : List Nat → List Text
  | [] => [text]
  | position :: rest => text.take (position - first) :: cutAt position (text.drop (position - first)) rest

/-- A line without the blanks at its end that do not fit. -/
def dropExcess (width : Nat) (line : Text) : Text :=
  let blanks := (line.reverse.takeWhile Codepoint.isBlank).length
  line.take (line.length - min blanks (line.length - width))

/-- A line cut to a width. -/
def truncate (width : Nat) (overflow : Overflow) (line : Text) : Text :=
  if Text.cells line ≤ width then line
  else match overflow with
    | .fold => Text.fit width line
    | .ellipsis => Text.fit (width - 1) line ++ [Codepoint.char '…']

def spaces (n : Nat) : Text := List.replicate n ' '

/-- A line put in its place within a width. -/
def align (width : Nat) (overflow : Overflow) (line : Text) : Align → Text
  | .loose => truncate width overflow line
  | .left =>
    let line := truncate width overflow line
    line ++ spaces (width - Text.cells line)
  | .center =>
    let line := truncate width overflow (Text.trimEndBy Codepoint.isBlank line)
    let room := width - Text.cells line
    spaces (room / 2) ++ line ++ spaces (room - room / 2)
  | .right =>
    let line := truncate width overflow (Text.trimEndBy Codepoint.isBlank line)
    spaces (width - Text.cells line) ++ line

/-- A line in which each tab is filled with spaces to the next multiple of eight. -/
def expandTabs (line : Text) : Text :=
  let pieces := Text.splitOn '\t' line
  let fill (piece : Text) : Text :=
    let used := Text.cells piece + 1
    piece ++ spaces (1 + (8 - used % 8) % 8)
  (pieces.dropLast.flatMap fill) ++ pieces.getLastD []

/-- The lines of a text within a width. -/
def lines (width : Nat) (overflow : Overflow) (alignment : Align) (text : Text) : List Text :=
  (Text.lines text).flatMap fun line =>
    let line := expandTabs line
    let breaks := breaksFrom width overflow 0 (words line)
    (cutAt 0 line breaks).map fun piece => align width overflow (dropExcess width piece) alignment

end Deadwood.Wrap
