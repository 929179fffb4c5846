import Deadwood.Terminal.Wrap

/-!
# Tables and panels

A panel is a frame around some lines.  A table has a title above its columns;
its columns are as wide as their widest cell, and shrink to fit the terminal.
-/

namespace Deadwood.Terminal

open Wrap

/-- The width of the terminal. -/
def width : Nat := 80

/-- Whether a line ends after a code point. -/
def endsLine (c : Codepoint) : Bool :=
  [0xA, 0xB, 0xC, 0xD, 0x1C, 0x1D, 0x1E, 0x85, 0x2028, 0x2029].contains c.value

/-- The pieces of a text between the code points that end lines. -/
def measuredLines : Text → List Text
  | [] => [[]]
  | c :: rest =>
    if endsLine c then [] :: measuredLines rest
    else match measuredLines rest with
      | [] => [[c]]
      | line :: lines => (c :: line) :: lines

/-- The number of cells of the widest line of a text. -/
def widest (text : Text) : Nat := ((measuredLines text).map Text.cells).foldl max 0

/-- A row of one code point. -/
def rule (c : Char) (n : Nat) : Text := List.replicate n c

/-- A panel around some lines, with a title in its frame. -/
def panel (title : Text) (body : Text) : List Text :=
  let heading := spaces 1 ++ title ++ spaces 1
  let inner := min (width - 2) (max (widest body + 2) (Text.cells heading + 2))
  let room := inner - 2 - Text.cells heading
  let top := rule '╭' 1 ++ rule '─' (1 + room / 2) ++ heading ++ rule '─' (1 + (room - room / 2)) ++ rule '╮' 1
  let body := (Wrap.lines (inner - 2) .fold .left body).map fun line =>
    rule '│' 1 ++ spaces 1 ++ line ++ spaces 1 ++ rule '│' 1
  top :: body ++ [rule '╰' 1 ++ rule '─' inner ++ rule '╯' 1]

/-- A title above something of a given width. -/
def titleLines (title : Text) (total : Nat) : List Text := Wrap.lines total .fold .center title

/-- The lines of a cell, with a space on both sides. -/
def cellLines (total : Nat) (alignment : Align) (text : Text) : List Text :=
  (Wrap.lines (total - 2) .ellipsis alignment text).map fun line =>
    spaces 1 ++ line ++ spaces (total - 2 - Text.cells line) ++ spaces 1

/-- A table of one column without a frame. -/
def listing (title : Text) (cells : List Text) : List Text :=
  let total := min width ((cells.map widest).foldl max 0 + 2)
  titleLines title total ++ cells.flatMap (cellLines total .left)

/-- Half of a number; of two halves the even one. -/
def evenHalf (n : Nat) : Nat := if n % 2 = 1 && n / 2 % 2 = 1 then n / 2 + 1 else n / 2

/-- The widths of two columns within a room: the wider one is reduced down to the other, then both are. -/
def shrink (room first second : Nat) : Nat × Nat :=
  let excess := first + second - room
  let less := min excess ((first - second) + (second - first))
  let (first, second) := if second < first then (first - less, second) else (first, second - less)
  let rest := excess - less
  (first - evenHalf rest, second - (rest - evenHalf rest))

/-- Lines filled to a number of lines by blank ones. -/
def fillLines (count total : Nat) (lines : List Text) : List Text :=
  lines ++ List.replicate (count - lines.length) (spaces total)

/-- The lines of a row of two cells between three bars. -/
def rowLines (bar : Char) (first second : Nat) (left right : Text) : List Text :=
  let left := cellLines first .left left
  let right := cellLines second .right right
  let count := max left.length right.length
  (List.zip (fillLines count first left) (fillLines count second right)).map fun (l, r) =>
    rule bar 1 ++ l ++ rule bar 1 ++ r ++ rule bar 1

/-- A framed table of two columns, the second one flush right. -/
def framed (title : Text) (heads : Text × Text) (rows : List (Text × Text)) : List Text :=
  let room := width - 3
  let widths (cells : List Text) : Nat := min room ((cells.map widest).foldl max 0 + 2)
  let (first, second) := shrink room (widths (heads.1 :: rows.map (·.1))) (widths (heads.2 :: rows.map (·.2)))
  let bars (l h m r : Char) : Text := rule l 1 ++ rule h first ++ rule m 1 ++ rule h second ++ rule r 1
  titleLines title (first + second + 3) ++
    bars '┏' '━' '┳' '┓' :: rowLines '┃' first second heads.1 heads.2 ++
    bars '┡' '━' '╇' '┩' :: (rows.flatMap fun (l, r) => rowLines '│' first second l r) ++
    [bars '└' '─' '┴' '┘']

end Deadwood.Terminal
