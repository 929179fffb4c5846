import Deadwood.Text.Basic

/-!
# Blanks

The code points that count as white space when a text is trimmed.
-/

namespace Deadwood

/-- Whether a code point is white space. -/
def Codepoint.isBlank (c : Codepoint) : Bool :=
  let n := c.value
  (9 ≤ n && n ≤ 13) || (0x1C ≤ n && n ≤ 0x20) || n == 0x85 || n == 0xA0 || n == 0x1680 ||
    (0x2000 ≤ n && n ≤ 0x200A) || n == 0x2028 || n == 0x2029 || n == 0x202F || n == 0x205F || n == 0x3000

namespace Text

/-- A text without the given code points at its front. -/
def trimStartBy (p : Codepoint → Bool) (t : Text) : Text := t.dropWhile p

/-- A text without the given code points at its end. -/
def trimEndBy (p : Codepoint → Bool) (t : Text) : Text := (t.reverse.dropWhile p).reverse

/-- A text without white space at its two ends. -/
def trim (t : Text) : Text := trimEndBy Codepoint.isBlank (trimStartBy Codepoint.isBlank t)

end Text

end Deadwood
