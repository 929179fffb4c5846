/-!
# Texts

A text is a list of code points.  Paths and file contents may hold a surrogate
that stands alone, which no `Char` is, so a code point is a character or such a
surrogate.  Texts are ordered by the values of their code points.
-/

namespace Deadwood

/-- A code point: a character, or one of the 2048 surrogates standing alone. -/
inductive Codepoint where
  | char (c : Char)
  | surrogate (index : Fin 2048)
  deriving DecidableEq, Repr

namespace Codepoint

/-- The number of a code point. -/
def value : Codepoint → Nat
  | char c => c.toNat
  | surrogate index => 0xD800 + index.val

/-- The code point with a given number, if there is one. -/
def ofNat? (n : Nat) : Option Codepoint :=
  if valid : n.isValidChar then some (char (Char.ofNatAux n valid))
  else if bound : n - 0xD800 < 2048 then
    if 0xD800 ≤ n then some (surrogate ⟨n - 0xD800, bound⟩) else none
  else none

/-- The character that a code point is, if it is one. -/
def char? : Codepoint → Option Char
  | char c => some c
  | surrogate _ => none

/-- Whether a code point is a surrogate standing alone. -/
def isSurrogate : Codepoint → Bool
  | char _ => false
  | surrogate _ => true

instance : Coe Char Codepoint := ⟨char⟩

end Codepoint

/-- Whether a number lies in one of some ranges. -/
def inRanges (ranges : List (Nat × Nat)) (n : Nat) : Bool := ranges.any fun (low, high) => low ≤ n && n ≤ high

/-- A text: a sequence of code points. -/
abbrev Text := List Codepoint

namespace Text

/-- The text of a string. -/
def ofString (s : String) : Text := s.toList.map .char

/-- The text of a list of characters. -/
def ofChars (cs : List Char) : Text := cs.map .char

instance : Coe String Text := ⟨ofString⟩

/-- The characters of a text without surrogates. -/
def chars? (t : Text) : Option (List Char) := t.mapM Codepoint.char?

/-- The string of a text without surrogates. -/
def toString? (t : Text) : Option String := t.chars?.map String.ofList

/-- Whether a text holds a surrogate standing alone. -/
def hasSurrogate (t : Text) : Bool := t.any Codepoint.isSurrogate

/-- The order of texts: the first code point that differs decides, and a beginning stands before the whole. -/
def compare : Text → Text → Ordering
  | [], [] => .eq
  | [], _ :: _ => .lt
  | _ :: _, [] => .gt
  | a :: s, b :: t => (Ord.compare a.value b.value).then (compare s t)

/-- The first text does not come after the second. -/
def le (s t : Text) : Bool := s.compare t != .gt

/-- The distinct members of a list, in increasing order. -/
def sortedSet (texts : List Text) : List Text :=
  (texts.mergeSort le).eraseReps

/-- Whether a text begins with another. -/
def startsWith (t start : Text) : Bool := start.isPrefixOf t

/-- Whether a text ends with another. -/
def endsWith (t stop : Text) : Bool := stop.isSuffixOf t

/-- Whether a text holds another as consecutive code points. -/
def contains (t part : Text) : Bool :=
  match t with
  | [] => part.isEmpty
  | c :: rest => part.isPrefixOf (c :: rest) || contains rest part

/-- The pieces of a text between the occurrences of a code point. -/
def splitOn (separator : Codepoint) : Text → List Text
  | [] => [[]]
  | c :: rest =>
    if c = separator then [] :: splitOn separator rest
    else match splitOn separator rest with
      | [] => [[c]]
      | piece :: pieces => (c :: piece) :: pieces

/-- The texts one after the other with a separator between them. -/
def joinWith (separator : Text) (texts : List Text) : Text := List.intercalate separator texts

/-- One code point put in place of another throughout. -/
def replaceChar (t : Text) (old new : Codepoint) : Text := t.map fun c => if c = old then new else c

/-- The lines of a text, cut at line feeds. -/
def lines (t : Text) : List Text := splitOn '\n' t

/-- The decimal numeral of a natural number. -/
def ofNat (n : Nat) : Text := ofString (toString n)

/-- The decimal numeral of an integer. -/
def ofInt (n : Int) : Text := ofString (toString n)

end Text

end Deadwood
