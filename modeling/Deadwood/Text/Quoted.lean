import Deadwood.Text.Printable

/-!
# Quoted texts

A text between quotes, in which everything that cannot be shown is written by
its number.  Double quotes are taken only where single ones would have to be
escaped and double ones would not.
-/

namespace Deadwood.Text

/-- A number in base sixteen with at least some digits. -/
def hexDigits (width n : Nat) : Text :=
  let digits := Nat.toDigits 16 n
  ofChars (List.replicate (width - digits.length) '0' ++ digits)

/-- A code point as it stands between some quotes. -/
def quoteCodepoint (quote : Codepoint) (c : Codepoint) : Text :=
  let backslash := Codepoint.char '\\'
  if c = quote || c = backslash then [backslash, c]
  else if c = Codepoint.char '\n' then "\\n"
  else if c = Codepoint.char '\r' then "\\r"
  else if c = Codepoint.char '\t' then "\\t"
  else if c.isPrintable then [c]
  else if c.value < 0x100 then "\\x" ++ hexDigits 2 c.value
  else if c.value < 0x10000 then "\\u" ++ hexDigits 4 c.value
  else "\\U" ++ hexDigits 8 c.value

/-- The text between quotes. -/
def quoted (t : Text) : Text :=
  let single := Codepoint.char '\x27'
  let double := Codepoint.char '\x22'
  let quote := if t.any (· = single) && !t.any (· = double) then double else single
  quote :: t.flatMap (quoteCodepoint quote) ++ [quote]

end Deadwood.Text
