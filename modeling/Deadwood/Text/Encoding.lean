import Deadwood.Text.Basic

/-!
# Encodings

Texts as bytes.  Reading bytes gives characters and stretches of bytes that are
no characters; a policy says what becomes of the stretches.  A stretch is as
long as the bytes could still have become a character.
-/

namespace Deadwood

/-- A sequence of bytes. -/
abbrev Bytes := List UInt8

namespace Encoding

/-- The bytes of a character in UTF-8. -/
def utf8Char (c : Char) : Bytes :=
  let n := c.toNat
  let tail := fun (shift : Nat) => UInt8.ofNat (0x80 + n / Nat.pow 64 shift % 64)
  if n < 0x80 then [UInt8.ofNat n]
  else if n < 0x800 then [UInt8.ofNat (0xC0 + n / 64), tail 0]
  else if n < 0x10000 then [UInt8.ofNat (0xE0 + n / 0x1000), tail 1, tail 0]
  else [UInt8.ofNat (0xF0 + n / 0x40000), tail 2, tail 1, tail 0]

/-- The bytes of characters in UTF-8. -/
def utf8 (cs : List Char) : Bytes := cs.flatMap utf8Char

/-- Why bytes are no character. -/
inductive Reason where
  | invalidStart
  | invalidContinuation
  | unexpectedEnd
  | outOfRange
  deriving DecidableEq, Repr

def Reason.description : Reason → String
  | invalidStart => "invalid start byte"
  | invalidContinuation => "invalid continuation byte"
  | unexpectedEnd => "unexpected end of data"
  | outOfRange => "ordinal not in range(128)"

/-- A piece of what bytes say: a character, or bytes that are none. -/
inductive Piece where
  | char (c : Char)
  | bad (bytes : Bytes) (reason : Reason)
  deriving DecidableEq, Repr

/-- Whether a byte continues a character. -/
def isTail (b : UInt8) : Bool := 0x80 ≤ b && b ≤ 0xBF

/-- The value of a continuing byte. -/
def tailValue (b : UInt8) : Nat := b.toNat - 0x80

/-- The second bytes that may follow a first byte. -/
def isSecond (first second : UInt8) : Bool :=
  isTail second && (first != 0xE0 || 0xA0 ≤ second) && (first != 0xED || second < 0xA0) &&
    (first != 0xF0 || 0x90 ≤ second) && (first != 0xF4 || second < 0x90)

/-- The piece at the front of bytes in UTF-8, and its width. -/
def utf8Piece (first : UInt8) (rest : Bytes) : Piece × Nat :=
  let bad := fun (width : Nat) (reason : Reason) => (Piece.bad ((first :: rest).take width) reason, width)
  if first < 0x80 then (.char (Char.ofNat first.toNat), 1)
  else if first < 0xC2 || 0xF4 < first then bad 1 .invalidStart
  else match rest with
    | [] => bad 1 .unexpectedEnd
    | second :: rest =>
      if !isSecond first second then bad 1 .invalidContinuation
      else if first < 0xE0 then (.char (Char.ofNat ((first.toNat - 0xC0) * 64 + tailValue second)), 2)
      else match rest with
        | [] => bad 2 .unexpectedEnd
        | third :: rest =>
          if !isTail third then bad 2 .invalidContinuation
          else if first < 0xF0 then
            (.char (Char.ofNat (((first.toNat - 0xE0) * 64 + tailValue second) * 64 + tailValue third)), 3)
          else match rest with
            | [] => bad 3 .unexpectedEnd
            | fourth :: _ =>
              if !isTail fourth then bad 3 .invalidContinuation
              else (.char (Char.ofNat ((((first.toNat - 0xF0) * 64 + tailValue second) * 64 + tailValue third) * 64
                + tailValue fourth)), 4)

/-- The encodings that files are read in. -/
inductive Scheme where
  | utf8
  | ascii
  | latin1
  deriving DecidableEq, Repr

/-- The name of an encoding in messages. -/
def Scheme.name : Scheme → String
  | utf8 => "utf-8"
  | ascii => "ascii"
  | latin1 => "latin-1"

/-- The piece at the front of bytes, and its width. -/
def Scheme.piece : Scheme → UInt8 → Bytes → Piece × Nat
  | utf8, first, rest => utf8Piece first rest
  | ascii, first, _ => if first < 0x80 then (.char (Char.ofNat first.toNat), 1) else (.bad [first] .outOfRange, 1)
  | latin1, first, _ => (.char (Char.ofNat first.toNat), 1)

/-- The pieces of bytes, after those found already, the last one first; the next `skip` bytes belong to the last one. -/
def piecesFrom (scheme : Scheme) (found : List Piece) : Nat → Bytes → List Piece
  | _, [] => found.reverse
  | skip + 1, _ :: rest => piecesFrom scheme found skip rest
  | 0, first :: rest =>
    let (piece, width) := scheme.piece first rest
    piecesFrom scheme (piece :: found) (width - 1) rest

/-- The pieces of bytes. -/
def pieces (scheme : Scheme) (bytes : Bytes) : List Piece := piecesFrom scheme [] 0 bytes

/-- What becomes of bytes that are no character. -/
inductive Policy where
  /-- They are refused. -/
  | strict
  /-- A replacement character stands for each stretch. -/
  | replace
  /-- They are left out. -/
  | ignore
  /-- Each becomes a surrogate that stands for the byte. -/
  | escape
  /-- Each is written as a backslash, `x` and two digits. -/
  | backslash
  deriving DecidableEq, Repr

/-- A refused stretch of bytes and where it stands. -/
structure DecodeError where
  scheme : Scheme
  position : Nat
  bytes : Bytes
  reason : Reason
  deriving DecidableEq, Repr

/-- Two digits in base sixteen. -/
def hexByte (b : UInt8) : List Char :=
  let digits := Nat.toDigits 16 b.toNat
  if digits.length < 2 then '0' :: digits else digits

/-- What is wrong with bytes that are refused. -/
def DecodeError.message (error : DecodeError) : Text :=
  let start := Text.ofString ("'" ++ error.scheme.name ++ "' codec can't decode ")
  let place : Text := match error.bytes with
    | [b] => "byte 0x" ++ Text.ofChars (hexByte b) ++ " in position " ++ Text.ofNat error.position
    | bytes =>
      "bytes in position " ++ Text.ofNat error.position ++ "-" ++ Text.ofNat (error.position + bytes.length - 1)
  start ++ place ++ ": " ++ error.reason.description

/-- The surrogate that stands for a byte. -/
def escapeByte (b : UInt8) : Codepoint := .surrogate ⟨0x400 + b.toNat, by have := b.toNat_lt; omega⟩

/-- The text that a policy makes of bytes that are no character. -/
def Policy.text : Policy → Bytes → Text
  | strict, _ => []
  | replace, _ => [Codepoint.char '\ufffd']
  | ignore, _ => []
  | escape, bytes => bytes.map escapeByte
  | backslash, bytes => bytes.flatMap fun b => Text.ofChars ('\\' :: 'x' :: hexByte b)

/-- The first stretch that is refused: pieces before it fill `position` bytes. -/
def firstBad (scheme : Scheme) : Nat → List Piece → Option DecodeError
  | _, [] => none
  | position, .char c :: rest =>
    firstBad scheme (position + (if scheme = .utf8 then (utf8Char c).length else 1)) rest
  | position, .bad bytes reason :: _ => some { scheme, position, bytes, reason }

/-- The text of bytes. -/
def decode (scheme : Scheme) (policy : Policy) (bytes : Bytes) : Except DecodeError Text :=
  let found := pieces scheme bytes
  match if policy = .strict then firstBad scheme 0 found else none with
  | some error => throw error
  | none => pure (found.flatMap fun piece => match piece with
    | .char c => [Codepoint.char c]
    | .bad bytes _ => policy.text bytes)

/-- The text of bytes in UTF-8 whose stretches are not refused. -/
def decodeUtf8 (policy : Policy) (bytes : Bytes) : Text :=
  (pieces .utf8 bytes).flatMap fun piece => match piece with
    | .char c => [Codepoint.char c]
    | .bad bytes _ => policy.text bytes

/-- Carriage returns, alone or before a line feed, become line feeds; the code points found already come last first. -/
def unifyLinesFrom (found : Text) : Text → Text
  | [] => found.reverse
  | c :: rest =>
    if c = Codepoint.char '\r' then
      match rest with
      | d :: more =>
        if d = Codepoint.char '\n' then unifyLinesFrom (Codepoint.char '\n' :: found) more
        else unifyLinesFrom (Codepoint.char '\n' :: found) (d :: more)
      | [] => unifyLinesFrom (Codepoint.char '\n' :: found) []
    else unifyLinesFrom (c :: found) rest

/-- Carriage returns, alone or before a line feed, become line feeds. -/
def unifyLines (text : Text) : Text := unifyLinesFrom [] text

/-- The bytes of a code point; a surrogate that stands for a byte is that byte. -/
def escapedByte? : Codepoint → Option Bytes
  | .char c => some (utf8Char c)
  | .surrogate index =>
    if 0x480 ≤ index.val && index.val < 0x500 then some [UInt8.ofNat (index.val - 0x400)] else none

/-- The bytes of a text in which surrogates stand for bytes; other surrogates have none. -/
def encodeEscaped? (text : Text) : Option Bytes := (text.mapM escapedByte?).map List.flatten

/-- The number of bytes of a text in which surrogates stand for bytes; other surrogates count for nothing. -/
def byteCount (text : Text) : Nat := (text.flatMap fun c => (escapedByte? c).getD []).length

/-- A text in which each surrogate is written as a backslash, `u` and four digits. -/
def backslashSurrogates (text : Text) : Text :=
  text.flatMap fun c => if c.isSurrogate then Text.ofChars ('\\' :: 'u' :: Nat.toDigits 16 c.value) else [c]

end Encoding

namespace Text

/-- A path as it is shown: bytes of its name that are no text are written as `\xNN`. -/
def display (path : Text) : Text :=
  match Encoding.encodeEscaped? path with
  | some bytes => Encoding.decodeUtf8 .backslash bytes
  | none => Encoding.backslashSurrogates path

end Text

end Deadwood
