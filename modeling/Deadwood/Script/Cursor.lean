import Deadwood.Script.Tree
import Deadwood.Script.Lexeme

/-!
# Places in a script

A cursor stands between two lexemes.  It knows both what directly follows the
last lexeme and what follows once blanks and comments are passed over, because
a line end closes a statement at some places and templates and markup text
take blanks as they are.
-/

namespace Deadwood.Script

/-- What the passing over of blanks and comments is in the midst of. -/
inductive TriviaPlace where
  | between
  | line (start : Nat)
  | block (start : Nat) (whole : List Char)

/-- A place between two lexemes. -/
structure Cursor where
  /-- What follows the blanks and comments. -/
  rest : List Char
  /-- The number of characters before `rest`. -/
  offset : Nat
  /-- What directly follows the last lexeme. -/
  tail : List Char
  /-- The number of characters before `tail`. -/
  tailOffset : Nat
  /-- The comments between the two, the last one first. -/
  comments : List Node

namespace Cursor

/-- Passes over blanks and comments; a block comment that never closes is none. -/
def pass : TriviaPlace → Nat → List Node → List Char → List Char × Nat × List Node
  | .between, offset, comments, [] => ([], offset, comments)
  | .between, offset, comments, '/' :: '/' :: rest => pass (.line offset) (offset + 2) comments rest
  | .between, offset, comments, '/' :: '*' :: rest =>
    pass (.block offset ('/' :: '*' :: rest)) (offset + 2) comments rest
  | .between, offset, comments, c :: rest =>
    if isSpace c then pass .between (offset + 1) comments rest else (c :: rest, offset, comments)
  | .line start, offset, comments, [] => ([], offset, .mk .comment none start offset [] :: comments)
  | .line start, offset, comments, c :: rest =>
    if isLineBreak c then pass .between (offset + 1) (.mk .comment none start offset [] :: comments) rest
    else pass (.line start) (offset + 1) comments rest
  | .block start whole, _, comments, [] => (whole, start, comments)
  | .block start _, offset, comments, '*' :: '/' :: rest =>
    pass .between (offset + 2) (.mk .comment none start (offset + 2) [] :: comments) rest
  | .block start whole, offset, comments, _ :: rest => pass (.block start whole) (offset + 1) comments rest

/-- The place after a lexeme that ends at an offset. -/
def after (tailOffset : Nat) (tail : List Char) : Cursor :=
  let (rest, offset, comments) := pass .between tailOffset [] tail
  { rest, offset, tail, tailOffset, comments }

/-- The first place of a source. -/
def begin (source : List Char) : Cursor := after 0 source

/-- The place after a lexeme of some width that stands behind the blanks. -/
def advance (cursor : Cursor) (width : Nat) : Cursor :=
  after (cursor.offset + width) (cursor.rest.drop width)

/-- The place after some characters that directly follow the last lexeme. -/
def advanceTail (cursor : Cursor) (width : Nat) : Cursor :=
  after (cursor.tailOffset + width) (cursor.tail.drop width)

/-- Whether nothing but blanks and comments is left. -/
def atEnd (cursor : Cursor) : Bool := cursor.rest.isEmpty

end Cursor

/-- What the search for the end of a line is in the midst of. -/
inductive LinePlace where
  | before
  | lineComment
  | blockComment

/-- Whether a word other than `in` or `instanceof`, or a mark that cannot continue an expression, is at the front:
then a line that ended before it closes what came before. -/
def startsAnew (afterExpression signature : Bool) : List Char → Bool
  | [] => true
  | c :: rest =>
    if "\x60,.;*%><=?^|&/:".toList.contains c then false
    else if c == '\x7b' then !signature
    else if c == '(' || c == '[' then !afterExpression
    else if c == '+' then rest.head? == some '+'
    else if c == '-' then rest.head? == some '-'
    else if c == '!' then rest.head? != some '='
    else if c == 'i' then
      let isLetter := fun (d : Char) => d.isAlpha || 127 < d.toNat
      let endsWord := fun (cs : List Char) => !(cs.head?.any isLetter)
      match rest with
      | 'n' :: more =>
        if endsWord more then false
        else if "stanceof".toList.isPrefixOf more then !endsWord (more.drop 8)
        else true
      | _ => true
    else true

/-- Passes over the blanks and comments after a line break, and judges what follows. -/
def closesAfterBreak (afterExpression signature : Bool) : LinePlace → List Char → Bool
  | .before, '/' :: '/' :: rest => closesAfterBreak afterExpression signature .lineComment rest
  | .before, '/' :: '*' :: rest => closesAfterBreak afterExpression signature .blockComment rest
  | .before, c :: rest =>
    if isPlainSpace c then closesAfterBreak afterExpression signature .before rest
    else startsAnew afterExpression signature (c :: rest)
  | .lineComment, c :: rest =>
    if c == '\n' || c.toNat == 0x2028 || c.toNat == 0x2029 then
      closesAfterBreak afterExpression signature .before rest
    else closesAfterBreak afterExpression signature .lineComment rest
  | .blockComment, '*' :: '/' :: rest => closesAfterBreak afterExpression signature .before rest
  | .blockComment, _ :: rest => closesAfterBreak afterExpression signature .blockComment rest
  | _, [] => true

/-- Whether a statement may close here without a semicolon: at the end, before a closing brace, or at a line break
after which something new starts. -/
def closesHere (afterExpression signature : Bool) : LinePlace → List Char → Bool
  | .before, '/' :: '/' :: rest => closesHere afterExpression signature .lineComment rest
  | .before, '/' :: '*' :: rest => closesHere afterExpression signature .blockComment rest
  | .before, '\x7d' :: rest =>
    if (rest.dropWhile isPlainSpace).head? == some ':' then afterExpression else true
  | .before, c :: rest =>
    if c.toNat == 0 then true
    else if c == '\n' then closesAfterBreak afterExpression signature .before rest
    else if isPlainSpace c then closesHere afterExpression signature .before rest
    else false
  | .lineComment, c :: rest =>
    if c == '\n' then closesAfterBreak afterExpression signature .before rest
    else if isLineBreak c then closesHere afterExpression signature .before rest
    else closesHere afterExpression signature .lineComment rest
  | .blockComment, '*' :: '/' :: rest => closesHere afterExpression signature .before rest
  | .blockComment, _ :: rest => closesHere afterExpression signature .blockComment rest
  | .blockComment, [] => false
  | _, [] => true

/-- Whether a statement may close at a place without a semicolon. -/
def Cursor.closes (cursor : Cursor) (afterExpression signature : Bool) : Bool :=
  closesHere afterExpression signature .before cursor.tail

end Deadwood.Script
