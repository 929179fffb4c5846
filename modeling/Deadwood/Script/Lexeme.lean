/-!
# Lexemes of scripts

A lexeme is described by what it looks like, and `Lexeme.width` measures it at
the front of a list of characters.  Which lexeme is looked for depends on the
place in the grammar: a word that is a keyword in one place is a name in
another.
-/

namespace Deadwood.Script

/-- The blanks between lexemes. -/
def isSpace (c : Char) : Bool :=
  let n := c.toNat
  (9 ≤ n && n ≤ 13) || n == 0x20 || n == 0x85 || n == 0xA0 || n == 0x1680 || (0x2000 ≤ n && n ≤ 0x200B) ||
    n == 0x2028 || n == 0x2029 || n == 0x202F || n == 0x205F || n == 0x2060 || n == 0x3000 || n == 0xFEFF

/-- The blanks that the search for the end of a line passes over. -/
def isPlainSpace (c : Char) : Bool :=
  let n := c.toNat
  (9 ≤ n && n ≤ 13) || n == 0x20 || n == 0x1680 || (0x2000 ≤ n && n ≤ 0x2006) || (0x2008 ≤ n && n ≤ 0x200A) ||
    n == 0x2028 || n == 0x2029 || n == 0x205F || n == 0x3000

/-- The characters that end a line comment. -/
def isLineBreak (c : Char) : Bool :=
  c == '\n' || c == '\r' || c.toNat == 0x2028 || c.toNat == 0x2029

/-- The characters of a name after its first one. -/
def isNamePart (c : Char) : Bool :=
  !(c.toNat < 0x20 || isSpace c || ":;\x60\x22\x27@#.,|^&<=>+-*/\\%?!~()[]\x7b\x7d".toList.contains c)

/-- The characters with which a name begins. -/
def isNameStart (c : Char) : Bool := isNamePart c && !c.isDigit

def isHex (c : Char) : Bool :=
  c.isDigit || ('a' ≤ c && c ≤ 'f') || ('A' ≤ c && c ≤ 'F')

def isOctal (c : Char) : Bool := '0' ≤ c && c ≤ '7'

/-- The number of leading characters with a property. -/
def countWhile (p : Char → Bool) (cs : List Char) : Nat := (cs.takeWhile p).length

/-- The width of a character written by its number, after the backslash: `u` with four digits or with braces. -/
def unicodeEscapeWidth : List Char → Option Nat
  | 'u' :: '\x7b' :: rest =>
    let digits := countWhile isHex rest
    if 0 < digits && (rest.drop digits).head? == some '\x7d' then some (digits + 3) else none
  | 'u' :: a :: b :: c :: d :: _ => if [a, b, c, d].all isHex then some 5 else none
  | _ => none

/-- The width of an escape in a string, after the backslash. -/
def escapeWidth : List Char → Option Nat
  | '\r' :: '\n' :: _ => some 2
  | '?' :: '\n' :: _ => some 2
  | 'x' :: a :: b :: _ => if isHex a && isHex b then some 3 else none
  | 'x' :: _ => none
  | 'u' :: rest => unicodeEscapeWidth ('u' :: rest)
  | c :: rest => if isOctal c then some (min 3 (countWhile isOctal (c :: rest))) else some 1
  | [] => none

/-- The width of a name whose first `seen` characters are read, of which the next `skip` belong to an escape. -/
def nameRestWidth : Nat → Nat → List Char → Nat
  | _, seen, [] => seen
  | skip + 1, seen, _ :: rest => nameRestWidth skip (seen + 1) rest
  | 0, seen, c :: rest =>
    if isNamePart c then nameRestWidth 0 (seen + 1) rest
    else if c == '\\' then
      match unicodeEscapeWidth rest with
      | some n => nameRestWidth n (seen + 1) rest
      | none => seen
    else seen

/-- The width of a name. -/
def nameWidth : List Char → Option Nat
  | [] => none
  | c :: rest =>
    if isNameStart c || (c == '\\' && (unicodeEscapeWidth rest).isSome) then some (nameRestWidth 0 0 (c :: rest))
    else none

/-- The width of digits with single underscores between them. -/
def digitsWidth (p : Char → Bool) : List Char → Nat
  | c :: '_' :: d :: rest =>
    if p c then if p d then digitsWidth p (d :: rest) + 2 else 1 else 0
  | c :: rest => if p c then digitsWidth p rest + 1 else 0
  | [] => 0

/-- The width of an integer part that may be followed by a point: no zero stands before a zero. -/
def wholeWidth : List Char → Nat
  | '0' :: c :: rest =>
    if '1' ≤ c && c ≤ '9' then digitsWidth Char.isDigit (c :: rest) + 1 else 1
  | cs => digitsWidth Char.isDigit cs

/-- The width of an exponent, zero if there is none. -/
def exponentWidth : List Char → Nat
  | e :: sign :: rest =>
    if e == 'e' || e == 'E' then
      if sign == '+' || sign == '-' then
        let digits := digitsWidth Char.isDigit rest
        if digits == 0 then 0 else digits + 2
      else
        let digits := digitsWidth Char.isDigit (sign :: rest)
        if digits == 0 then 0 else digits + 1
    else 0
  | _ => 0

/-- The width of digits in a base after its two-character mark, with a closing `n` for large integers. -/
def basedWidth (p : Char → Bool) (rest : List Char) : Nat :=
  let digits := digitsWidth p rest
  if digits == 0 then 1
  else if (rest.drop digits).head? == some 'n' then digits + 3 else digits + 2

/-- The width of a number. -/
def numberWidth (cs : List Char) : Option Nat :=
  let decimal : Nat :=
    let digits := digitsWidth Char.isDigit cs
    let long := if 0 < digits && (cs.drop digits).head? == some 'n' then digits + 1 else digits
    let whole := wholeWidth cs
    let after := cs.drop whole
    let pointed :=
      match after with
      | '.' :: rest =>
        let fraction := digitsWidth Char.isDigit rest
        if whole == 0 && fraction == 0 then 0
        else whole + 1 + fraction + exponentWidth (rest.drop fraction)
      | _ => if whole == 0 then 0 else whole + exponentWidth after
    max long pointed
  let width :=
    match cs with
    | '0' :: 'x' :: rest | '0' :: 'X' :: rest => basedWidth isHex rest
    | '0' :: 'b' :: rest | '0' :: 'B' :: rest => basedWidth (fun c => c == '0' || c == '1') rest
    | '0' :: 'o' :: rest | '0' :: 'O' :: rest => basedWidth isOctal rest
    | _ => decimal
  if width == 0 then none else some width

/-- The width of a quoted string whose first `seen` characters are read, of which the next `skip` belong to an escape.
A line may break only right before the closing quote. -/
def quotedRestWidth (quote : Char) : Nat → Nat → List Char → Option Nat
  | _, _, [] => none
  | skip + 1, seen, _ :: rest => quotedRestWidth quote skip (seen + 1) rest
  | 0, seen, c :: rest =>
    if c == quote then some (seen + 1)
    else if c == '\\' then
      match escapeWidth rest with
      | some n => quotedRestWidth quote n (seen + 1) rest
      | none => none
    else if c == '\n' || c == '\r' then
      let blanks := countWhile isSpace rest
      if (rest.drop blanks).head? == some quote then some (seen + blanks + 2) else none
    else quotedRestWidth quote 0 (seen + 1) rest

/-- The width of a quoted string. -/
def quotedWidth : List Char → Option Nat
  | c :: rest => if c == '\x22' || c == '\x27' then quotedRestWidth c 0 1 rest else none
  | [] => none

/-- The width of a character reference of markup. -/
def entityWidth : List Char → Option Nat
  | '&' :: '#' :: x :: rest =>
    if x == 'x' || x == 'X' then
      let digits := countWhile isHex rest
      if 1 ≤ digits && digits ≤ 6 && (rest.drop digits).head? == some ';' then some (digits + 4) else none
    else
      let digits := countWhile Char.isDigit (x :: rest)
      if 1 ≤ digits && digits ≤ 5 && ((x :: rest).drop digits).head? == some ';' then some (digits + 3) else none
  | '&' :: rest =>
    let letters := countWhile Char.isAlpha rest
    if 1 ≤ letters && letters ≤ 30 && (rest.drop letters).head? == some ';' then some (letters + 2) else none
  | _ => none

/-- The width of a quoted attribute value whose first `seen` characters are read. -/
def markupQuotedRestWidth (quote : Char) : Nat → Nat → List Char → Option Nat
  | _, _, [] => none
  | skip + 1, seen, _ :: rest => markupQuotedRestWidth quote skip (seen + 1) rest
  | 0, seen, c :: rest =>
    if c == quote then some (seen + 1)
    else if c == '&' then
      match rest with
      | [] => none
      | d :: _ =>
        if d == '#' || d.isAlpha then
          match entityWidth (c :: rest) with
          | some n => markupQuotedRestWidth quote (n - 1) (seen + 1) rest
          | none => none
        else markupQuotedRestWidth quote 1 (seen + 1) rest
    else markupQuotedRestWidth quote 0 (seen + 1) rest

/-- The width of a quoted attribute value. -/
def markupQuotedWidth : List Char → Option Nat
  | c :: rest => if c == '\x22' || c == '\x27' then markupQuotedRestWidth c 0 1 rest else none
  | [] => none

/-- The number of characters of a template up to its end or its next hole, `seen` of them read. -/
def templateCharsWidth : Nat → Nat → List Char → Nat
  | _, seen, [] => seen
  | skip + 1, seen, _ :: rest => templateCharsWidth skip (seen + 1) rest
  | 0, seen, c :: rest =>
    if c == '\x60' || c.toNat == 0 then seen
    else if c == '$' && rest.head? == some '\x7b' then seen
    else if c == '\\' then
      match escapeWidth rest with
      | some n => templateCharsWidth n (seen + 1) rest
      | none => seen
    else templateCharsWidth 0 (seen + 1) rest

/-- Where the measuring of a regular expression stands. -/
inductive RegexPlace where
  | outside
  | bracket
  | escape
  | bracketEscape

/-- The width of the body of a regular expression and its closing slash, `seen` characters of it read. -/
def regexBodyWidth : RegexPlace → Nat → List Char → Option Nat
  | _, _, [] => none
  | .outside, seen, c :: rest =>
    if c == '/' then some (seen + 1)
    else if c == '\n' then none
    else if c == '\\' then regexBodyWidth .escape (seen + 1) rest
    else if c == '[' then regexBodyWidth .bracket (seen + 1) rest
    else regexBodyWidth .outside (seen + 1) rest
  | .bracket, seen, c :: rest =>
    if c == '\n' then none
    else if c == '\\' then regexBodyWidth .bracketEscape (seen + 1) rest
    else if c == ']' then regexBodyWidth .outside (seen + 1) rest
    else regexBodyWidth .bracket (seen + 1) rest
  | .escape, seen, c :: rest => if c == '\n' then none else regexBodyWidth .outside (seen + 1) rest
  | .bracketEscape, seen, c :: rest => if c == '\n' then none else regexBodyWidth .bracket (seen + 1) rest

/-- The width of a regular expression with its flags. -/
def regexWidth : List Char → Option Nat
  | '/' :: rest =>
    match regexBodyWidth .outside 0 rest with
    | some n =>
      if n ≤ 1 then none
      else some (n + 1 + countWhile (fun c => 'a' ≤ c && c ≤ 'z') (rest.drop n))
    | none => none
  | _ => none

/-- The width of a name in markup, where hyphens may stand after the first part. -/
def markupNameWidth (cs : List Char) : Option Nat :=
  let isPart := fun (c : Char) => c.isAlphanum || c == '_' || c == '$'
  match cs with
  | [] => none
  | c :: _ =>
    let head := if isPart c && !c.isDigit then countWhile isPart cs else 0
    let dashed :=
      if 0 < head && (cs.drop head).head? == some '-' then
        head + countWhile (fun d => isPart d || d == '-') (cs.drop head)
      else 0
    match nameWidth cs with
    | some n => some (max n dashed)
    | none => if dashed == 0 then none else some dashed

/-- The operators that may follow an operand, longer ones first. -/
def operators : List String :=
  [">>>=", "===", "!==", "**=", "<<=", ">>=", ">>>", "&&=", "||=", "??=", "=>", "==", "!=", "<=", ">=", "&&", "||",
    "??", "?.", "++", "--", "+=", "-=", "*=", "/=", "%=", "&=", "|=", "^=", "<<", ">>", "**", "+", "-", "*", "/", "%",
    "&", "|", "^", "<", ">", "=", "!", "?"]

/-- The longest operator at the front. -/
def operatorAt (cs : List Char) : Option String := operators.find? fun op => op.toList.isPrefixOf cs

/-- The operators between two operands. -/
def binaryOperators : List String :=
  ["===", "!==", ">>>", "==", "!=", "<=", ">=", "&&", "||", "??", "<<", ">>", "**", "+", "-", "*", "/", "%", "&", "|",
    "^", "<", ">"]

/-- The operators that assign what they compute. -/
def assignmentOperators : List String :=
  [">>>=", "**=", "<<=", ">>=", "&&=", "||=", "??=", "+=", "-=", "*=", "/=", "%=", "&=", "|=", "^="]

/-- The width of an operator that is one of several. -/
def operatorWidth (allowed : List String) (cs : List Char) : Option Nat :=
  match operatorAt cs with
  | some op => if allowed.contains op then some op.toList.length else none
  | none => none

/-- Whether the question mark at the front opens the branches of a condition. -/
def opensBranches : List Char → Bool
  | '?' :: '?' :: _ => false
  | '?' :: '.' :: c :: _ => c.isDigit
  | '?' :: '.' :: [] => false
  | '?' :: rest =>
    match rest.dropWhile isPlainSpace with
    | ':' :: _ | ')' :: _ | ',' :: _ => false
    | _ => true
  | _ => false

/-- What can be looked for at a place of the source. -/
inductive Lexeme where
  /-- A mark, not directly followed by one of some characters. -/
  | mark (text : List Char) (notBefore : List Char)
  /-- A word. -/
  | word (text : List Char)
  /-- A name other than some words. -/
  | name (except : List String)
  | privateName
  | markupName
  | number
  | quoted
  | markupQuoted
  | regex
  | entity
  /-- An operator between two operands. -/
  | binary
  /-- An operator that assigns what it computes. -/
  | assigning
  /-- The question mark of a condition. -/
  | question
  /-- A first line that names an interpreter. -/
  | hashLine
  /-- A comment of the surrounding page. -/
  | pageComment
  deriving Repr

/-- The width of a lexeme at the front of a list of characters, if it stands there. -/
def Lexeme.width : Lexeme → List Char → Option Nat
  | .mark text notBefore, cs =>
    if text.isPrefixOf cs then
      match cs.drop text.length with
      | [] => some text.length
      | c :: _ => if notBefore.contains c then none else some text.length
    else none
  | .word text, cs =>
    match nameWidth cs with
    | some n => if cs.take n = text then some n else none
    | none => none
  | .name except, cs =>
    match nameWidth cs with
    | some n => if except.contains (String.ofList (cs.take n)) then none else some n
    | none => none
  | .privateName, cs =>
    match cs with
    | '#' :: rest => (nameWidth rest).map (· + 1)
    | _ => none
  | .markupName, cs => markupNameWidth cs
  | .number, cs => numberWidth cs
  | .quoted, cs => quotedWidth cs
  | .markupQuoted, cs => markupQuotedWidth cs
  | .regex, cs => regexWidth cs
  | .entity, cs => entityWidth cs
  | .binary, cs =>
    match operatorWidth binaryOperators cs with
    | some n => some n
    | none =>
      match nameWidth cs with
      | some n => if cs.take n = "in".toList || cs.take n = "instanceof".toList then some n else none
      | none => none
  | .assigning, cs => operatorWidth assignmentOperators cs
  | .question, cs => if opensBranches cs then some 1 else none
  | .hashLine, cs =>
    if "#!".toList.isPrefixOf cs then some (countWhile (· != '\n') cs) else none
  | .pageComment, cs =>
    if "<!--".toList.isPrefixOf cs || "-->".toList.isPrefixOf cs then
      some (countWhile (fun c => !isLineBreak c) cs)
    else none

end Deadwood.Script
