import Deadwood.Script.Cursor

/-!
# Rules and their recognition

A rule says what to look for: lexemes, sequences, ordered choices, repetitions,
lookahead.  `recognize` follows a rule from a place of the source and gathers
the nodes found on the way.  The rules of a grammar are named by symbols, and
a rule may mention any symbol, so the recursion is bounded by a depth.
-/

namespace Deadwood.Script

/-- What to look for, over the symbols of a grammar. -/
inductive Rule (Symbol : Type) where
  /-- A lexeme behind the blanks. -/
  | lexeme (lexeme : Lexeme)
  /-- The characters of a template. -/
  | templateChars
  /-- The text between two pieces of markup. -/
  | markupText
  /-- The rule of a symbol. -/
  | symbol (symbol : Symbol)
  /-- One rule after the other. -/
  | seq (rules : List (Rule Symbol))
  /-- The first rule that applies. -/
  | alt (rules : List (Rule Symbol))
  /-- A rule as often as it applies. -/
  | many (rule : Rule Symbol)
  /-- The rule does not apply here. -/
  | unless (rule : Rule Symbol)
  /-- The rule applies here, and nothing is consumed. -/
  | ahead (rule : Rule Symbol)
  /-- What the rule consumes is one node. -/
  | node (kind : Kind) (rule : Rule Symbol)
  /-- The last node found and what the rule consumes are one node, in which the last node has a label. -/
  | extend (kind : Kind) (base : Option Label) (rule : Rule Symbol)
  /-- The last node that the rule finds has a label. -/
  | label (label : Label) (rule : Rule Symbol)
  /-- The last node found is of one of some kinds. -/
  | lastIs (kinds : List Kind)
  /-- A statement may close here without a semicolon. -/
  | lineEnd (afterExpression signature : Bool)

/-- A place and the nodes found before it, the last one first. -/
structure Progress where
  cursor : Cursor
  nodes : List Node

namespace Progress

/-- Passes over the lexeme of some width; the comments before it become nodes. -/
def pass (progress : Progress) (width : Nat) : Progress where
  cursor := progress.cursor.advance width
  nodes := progress.cursor.comments ++ progress.nodes

/-- The comments before the next lexeme become nodes. -/
def settle (progress : Progress) : Progress where
  cursor := { progress.cursor with comments := [] }
  nodes := progress.cursor.comments ++ progress.nodes

/-- Passes over characters that directly follow the last lexeme. -/
def passTail (progress : Progress) (width : Nat) : Option Progress :=
  if width == 0 then none else some { progress with cursor := progress.cursor.advanceTail width }

end Progress

/-- Whether a character can stand in text between pieces of markup. -/
def isMarkupText (c : Char) : Bool :=
  !(c.toNat == 0 || c == '<' || c == '>' || c == '\x7b' || c == '\x7d' || c == '&')

/-- Follows a rule of a grammar from a place, at most to a depth. -/
def recognize {Symbol : Type} (grammar : Symbol → Rule Symbol) : Nat → Rule Symbol → Progress → Option Progress
  | 0, _, _ => none
  | _ + 1, .lexeme lexeme, progress => (lexeme.width progress.cursor.rest).map progress.pass
  | _ + 1, .templateChars, progress => progress.passTail (templateCharsWidth 0 0 progress.cursor.tail)
  | _ + 1, .markupText, progress => progress.passTail (countWhile isMarkupText progress.cursor.tail)
  | depth + 1, .symbol symbol, progress => recognize grammar depth (grammar symbol) progress
  | _ + 1, .seq [], progress => some progress
  | depth + 1, .seq (rule :: rules), progress =>
    match recognize grammar depth rule progress with
    | some next => recognize grammar depth (.seq rules) next
    | none => none
  | _ + 1, .alt [], _ => none
  | depth + 1, .alt (rule :: rules), progress =>
    match recognize grammar depth rule progress with
    | some next => some next
    | none => recognize grammar depth (.alt rules) progress
  | depth + 1, .many rule, progress =>
    match recognize grammar depth rule progress with
    | some next =>
      if progress.cursor.tailOffset < next.cursor.tailOffset then recognize grammar depth (.many rule) next
      else some progress
    | none => some progress
  | depth + 1, .unless rule, progress =>
    match recognize grammar depth rule progress with
    | some _ => none
    | none => some progress
  | depth + 1, .ahead rule, progress =>
    match recognize grammar depth rule progress with
    | some _ => some progress
    | none => none
  | depth + 1, .node kind rule, progress =>
    let outer := progress.settle
    match recognize grammar depth rule { outer with nodes := [] } with
    | some next =>
      some { next with
        nodes := .mk kind none outer.cursor.offset next.cursor.tailOffset next.nodes.reverse :: outer.nodes }
    | none => none
  | depth + 1, .extend kind base rule, progress =>
    match progress.nodes with
    | [] => none
    | last :: before =>
      let first := match base with
        | some label => last.withLabel label
        | none => last
      match recognize grammar depth rule { progress with nodes := [first] } with
      | some next =>
        some { next with
          nodes := .mk kind none last.start next.cursor.tailOffset next.nodes.reverse :: before }
      | none => none
  | depth + 1, .label label rule, progress =>
    match recognize grammar depth rule progress with
    | some next =>
      match next.nodes with
      | last :: before => some { next with nodes := last.withLabel label :: before }
      | [] => none
    | none => none
  | _ + 1, .lastIs kinds, progress =>
    match progress.nodes with
    | last :: _ => if kinds.contains last.kind then some progress else none
    | [] => none
  | _ + 1, .lineEnd afterExpression signature, progress =>
    if progress.cursor.closes afterExpression signature then some progress else none

end Deadwood.Script
