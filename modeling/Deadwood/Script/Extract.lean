import Deadwood.Script.References
import Deadwood.Failure

/-!
# Extracting the references of a script

The dialect follows from the path.  A script that cannot be encoded, or whose
tree has a fault, gives no references at all.
-/

namespace Deadwood.Script

/-- The dialect of a script at a path. -/
def Dialect.ofPath (path : Text) : Dialect := if Text.endsWith path ".tsx" then .markup else .plain

/-- The name of a dialect. -/
def Dialect.name : Dialect → String
  | .plain => "typescript"
  | .markup => "tsx"

/-- All dialects. -/
def Dialect.all : List Dialect := [.plain, .markup]

/-- The dialect of a given name. -/
def Dialect.ofName? (name : Text) : Option Dialect := Dialect.all.find? fun dialect => (dialect.name : Text) = name

/-- Where the first surrogates of a text stand: the position of the first one and the number that follow in a row. -/
def firstSurrogates (text : Text) : Option (Nat × Text) :=
  let before := text.takeWhile (!·.isSurrogate)
  match (text.drop before.length).takeWhile (·.isSurrogate) with
  | [] => none
  | run => some (before.length, run)

/-- What is wrong with a text that cannot be encoded. -/
def encodingReason (position : Nat) (run : Text) : Text :=
  let place : Text := match run with
    | [c] => "character '\\u" ++ Text.ofChars (Nat.toDigits 16 c.value) ++ "' in position " ++ Text.ofNat position
    | _ => "characters in position " ++ Text.ofNat position ++ "-" ++ Text.ofNat (position + run.length - 1)
  "Encoding error: 'utf-8' codec can't encode " ++ place ++ ": surrogates not allowed"

/-- The references of a script. -/
def extract (path text : Text) : Except Failure (List Reference) :=
  let dialect := Dialect.ofPath path
  match text.chars? with
  | none =>
    let (position, run) := (firstSurrogates text).getD (0, [])
    throw (.unparsable path dialect.name (encodingReason position run))
  | some source =>
    let tree := parse dialect source
    if tree.hasFault then throw (.unparsable path dialect.name "source contains syntax errors")
    else pure ((references dialect source tree).map fun (site, found) => { origin := path, text := found, site })

end Deadwood.Script
