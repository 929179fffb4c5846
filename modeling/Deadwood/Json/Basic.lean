import Deadwood.Number.Binary64
import Deadwood.Text.Quoted

/-!
# JSON values

The values of JSON and their text over several lines.  Everything but quotes,
backslashes and control characters stands in a string as it is.
-/

namespace Deadwood

/-- A JSON value; the members of an object keep their order. -/
inductive Json where
  | null
  | bool (value : Bool)
  | int (value : Int)
  | float (value : Binary64)
  | string (text : Text)
  | array (items : List Json)
  | object (members : List (Text × Json))
  deriving Repr

namespace Json

/-- The member of an object with a name; the last of several. -/
def member? (name : Text) (members : List (Text × Json)) : Option Json :=
  (members.reverse.find? (·.1 = name)).map (·.2)

/-- Whether a value is neither empty nor zero nor false. -/
def isTruthy : Json → Bool
  | null => false
  | bool value => value
  | int value => value ≠ 0
  | float value => !value.isZero
  | string text => text ≠ []
  | array items => !items.isEmpty
  | object members => !members.isEmpty

/-- A code point as it stands in a string. -/
def escapeCodepoint (c : Codepoint) : Text :=
  if c = Codepoint.char '\x22' then "\\\x22"
  else if c = Codepoint.char '\\' then "\\\\"
  else if c = Codepoint.char '\n' then "\\n"
  else if c = Codepoint.char '\r' then "\\r"
  else if c = Codepoint.char '\t' then "\\t"
  else if c.value = 0xC then "\\f"
  else if c.value = 8 then "\\b"
  else if c.value < 0x20 then "\\u" ++ Text.hexDigits 4 c.value
  else [c]

/-- The text of a string. -/
def renderString (text : Text) : Text :=
  Codepoint.char '\x22' :: text.flatMap escapeCodepoint ++ [Codepoint.char '\x22']

/-- The text of a list of strings, one to a line. -/
def renderStrings (indent : Text) (texts : List Text) : Text :=
  if texts = [] then "[]"
  else
    let inner := indent ++ "  "
    "[\n" ++ Text.joinWith ",\n" (texts.map fun text => inner ++ renderString text) ++ "\n" ++ indent ++ "]"

/-- The text of an object whose members are lists of strings. -/
def renderLists (members : List (Text × List Text)) : Text :=
  "\x7b\n" ++ Text.joinWith ",\n" (members.map fun (name, texts) =>
    "  " ++ renderString name ++ ": " ++ renderStrings "  " texts) ++ "\n\x7d"

end Json

end Deadwood
