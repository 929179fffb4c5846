import Deadwood.Script.Grammar

/-!
# Reading a script

`parse` gives every source a tree.  Statements are read one after the other;
where none can be read, one lexeme is passed over and kept as a fault, and the
reading goes on behind it.
-/

namespace Deadwood.Script

/-- The depth that suffices for a source of some length. -/
def depthFor (length : Nat) : Nat := (length + 1) * 512

/-- The width of the lexeme that is passed over when no statement can be read. -/
def faultWidth (cs : List Char) : Nat :=
  (nameWidth cs <|> numberWidth cs <|> quotedWidth cs).getD 1

/-- Passes over one lexeme that belongs to no statement. -/
def passFault (progress : Progress) : Progress :=
  let outer := progress.settle
  let next := outer.cursor.advance (faultWidth outer.cursor.rest)
  { cursor := next, nodes := .mk .fault none outer.cursor.offset next.tailOffset [] :: outer.nodes }

/-- Reads at most `bound` statements or faults. -/
def statements (dialect : Dialect) (depth : Nat) : Nat → Progress → Progress
  | 0, progress => progress
  | bound + 1, progress =>
    if progress.cursor.atEnd then progress
    else match recognize (grammar dialect) depth (.symbol .statement) progress with
      | some next => statements dialect depth bound next
      | none => statements dialect depth bound (passFault progress)

/-- The syntax tree of a source. -/
def parse (dialect : Dialect) (source : List Char) : Node :=
  let begin : Progress := { cursor := Cursor.begin source, nodes := [] }
  let depth := depthFor source.length
  let opened := (recognize (grammar dialect) depth (Clause.leaf .other .hashLine) begin).getD begin
  let last := (statements dialect depth source.length opened).settle
  .mk .program none 0 source.length last.nodes.reverse

end Deadwood.Script
