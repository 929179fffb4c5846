import Deadwood.Text.Basic

/-!
# Wildcards

A wildcard pattern matches whole texts: `*` any run of code points, `?` any
single one, a bracket one of a set, everything else itself.  A bracket that
does not close is an ordinary code point, and a reversed range is empty.
-/

namespace Deadwood

/-- A set of code points as written in brackets. -/
structure Bracket where
  negated : Bool
  /-- Ranges with both ends in the set; a single code point is a range of one. -/
  ranges : List (Codepoint × Codepoint)
  deriving DecidableEq, Repr

/-- Whether a code point is in the set. -/
def Bracket.matches (bracket : Bracket) (c : Codepoint) : Bool :=
  (bracket.ranges.any fun (low, high) => low.value ≤ c.value && c.value ≤ high.value) != bracket.negated

namespace Wildcard

/-- The parts of a pattern. -/
inductive Part where
  | run
  | any
  | never
  | one (c : Codepoint)
  | bracket (bracket : Bracket)
  deriving DecidableEq, Repr

/-- Splits what is in brackets at the hyphens that stand between two ends of a range.  The next `keep` code points
cannot be such hyphens. -/
def chunks : Nat → Text → List Text
  | _, [] => [[]]
  | keep, c :: rest =>
    if keep = 0 && c = Codepoint.char '-' then [] :: chunks 2 rest
    else match chunks (keep - 1) rest with
      | [] => [[c]]
      | chunk :: more => (c :: chunk) :: more

/-- A hyphen at the very end stands for itself. -/
def closeChunks : List Text → List Text
  | [] => []
  | [chunk] => [chunk]
  | [chunk, last] => if last = [] then [chunk ++ [Codepoint.char '-']] else [chunk, last]
  | chunk :: next :: more => chunk :: closeChunks (next :: more)

/-- Joins two neighbours, without the ends of the range between them, if that range is reversed. -/
def dropReversed (chunk : Text) : List Text → List Text
  | [] => [chunk]
  | next :: more =>
    match chunk.getLast?, next with
    | some high, low :: others =>
      if low.value < high.value then (chunk.dropLast ++ others) :: more else chunk :: next :: more
    | _, _ => chunk :: next :: more

/-- The ranges between and within chunks. -/
def rangesOf : List Text → List (Codepoint × Codepoint)
  | [] => []
  | [chunk] => chunk.map fun c => (c, c)
  | chunk :: next :: more =>
    let between := match chunk.getLast?, next.head? with
      | some low, some high => [(low, high)]
      | _, _ => []
    chunk.map (fun c => (c, c)) ++ between ++ rangesOf (next :: more)

/-- The part that a closed bracket stands for. -/
def bracketPart (inside : Text) : Part :=
  let mark := Codepoint.char '!'
  let keep := if inside.head? = some mark then 2 else 1
  let parts := (closeChunks (chunks keep inside)).foldr dropReversed []
  match parts with
  | [] => .never
  | [] :: [] => .never
  | first :: more =>
    if first = [mark] then
      -- A hyphen directly behind the mark stands for itself: the end of a range before it was dropped.
      let hyphen := Codepoint.char '-'
      if more = [] then .any else .bracket { negated := true, ranges := (hyphen, hyphen) :: rangesOf more }
    else if first.head? = some mark then .bracket { negated := true, ranges := rangesOf (first.drop 1 :: more) }
    else .bracket { negated := false, ranges := rangesOf parts }

/-- The inside of a bracket and its width with the closing mark, for the text behind the opening mark. -/
def bracketInside (text : Text) : Option (Text × Nat) :=
  let close := Codepoint.char ']'
  let head := if text.head? = some (Codepoint.char '!') then 1 else 0
  let head := if (text.drop head).head? = some close then head + 1 else head
  let body := (text.drop head).takeWhile (· ≠ close)
  let width := head + body.length
  if width < text.length then some (text.take width, width + 1) else none

/-- Reads a pattern; the next `skip` code points belong to a bracket already read. -/
def parts : Nat → Text → List Part
  | _, [] => []
  | skip + 1, _ :: rest => parts skip rest
  | 0, c :: rest =>
    if c = Codepoint.char '*' then .run :: parts 0 rest
    else if c = Codepoint.char '?' then .any :: parts 0 rest
    else if c = Codepoint.char '[' then
      match bracketInside rest with
      | some (inside, width) => bracketPart inside :: parts width rest
      | none => .one c :: parts 0 rest
    else .one c :: parts 0 rest

/-- Whether a text has an end that passes a test. -/
def anyEnd (test : Text → Bool) : Text → Bool
  | [] => test []
  | c :: rest => test (c :: rest) || anyEnd test rest

/-- Whether a text matches parts. -/
def matchParts : List Part → Text → Bool
  | [], text => text.isEmpty
  | .run :: more, text => anyEnd (matchParts more) text
  | part :: more, text =>
    match text with
    | [] => false
    | c :: rest =>
      (match part with
        | .any => true
        | .one d => c = d
        | .bracket bracket => bracket.matches c
        | _ => false) && matchParts more rest

/-- Whether a text matches a pattern. -/
def accepts (pattern text : Text) : Bool := matchParts (parts 0 pattern) text

end Wildcard

end Deadwood
