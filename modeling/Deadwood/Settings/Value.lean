import Deadwood.Moment
import Deadwood.Number.Numeral
import Deadwood.Number.Shortest
import Deadwood.Text.Quoted
import Deadwood.Failure

/-!
# Setting values

Settings come from files, variables and callers, and keep the values given
there until they are used.  A value knows its text, whether it counts as
given, and what it yields when its items are asked for.
-/

namespace Deadwood

/-- A value given for a setting. -/
inductive Value where
  | none
  | bool (value : Bool)
  | int (value : Int)
  | float (value : Binary64)
  | text (text : Text)
  | moment (moment : Moment)
  | list (items : List Value)
  | table (members : List (Text × Value))
  deriving Repr

namespace Value

instance : Inhabited Value := ⟨none⟩

/-- Whether a value is neither empty nor zero nor false. -/
def isTruthy : Value → Bool
  | none => false
  | bool b => b
  | int n => n ≠ 0
  | float x => !x.isZero
  | text t => t ≠ []
  | moment _ => true
  | list values => !values.isEmpty
  | table members => !members.isEmpty

/-- The name of a value's kind. -/
def kindName : Value → String
  | none => "NoneType"
  | bool _ => "bool"
  | int _ => "int"
  | float _ => "float"
  | text _ => "str"
  | moment m => m.kindName
  | list _ => "list"
  | table _ => "dict"

/-- The name of a value's kind in comparisons. -/
def fullKindName : Value → String
  | moment m => "datetime." ++ m.kindName
  | value => value.kindName

mutual

/-- A value as it stands inside a list. -/
def inList : Value → Text
  | none => "None"
  | bool b => if b then "True" else "False"
  | int n => Text.ofInt n
  | float x => x.toText
  | text t => Text.quoted t
  | moment m => m.inList
  | list values => "[" ++ Text.joinWith ", " (allInList values) ++ "]"
  | table members => "\x7b" ++ Text.joinWith ", " (membersInList members) ++ "\x7d"

/-- Values as they stand inside a list. -/
def allInList : List Value → List Text
  | [] => []
  | value :: rest => inList value :: allInList rest

/-- Named values as they stand inside a table. -/
def membersInList : List (Text × Value) → List Text
  | [] => []
  | (name, value) :: rest => (Text.quoted name ++ ": " ++ inList value) :: membersInList rest

end

/-- The most levels of a value that can be written: the items of a list or table are one level below it. -/
def depthLimit : Nat := 988

mutual

/-- What keeps a value from being written on a number of levels: it has more of them, or a whole number in it has too
many digits.  The first of these on the way through the value counts. -/
def obstacle? : Nat → Value → Option Fault
  | 0, _ => some .tooDeep
  | _ + 1, int n => if n.natAbs < Nat.pow 10 Numeral.digitLimit then Option.none else some .badValue
  | levels + 1, list values => firstObstacle? levels values
  | levels + 1, table members => memberObstacle? levels members
  | _ + 1, _ => Option.none

/-- What keeps the first of some values that cannot be written from it. -/
def firstObstacle? (levels : Nat) : List Value → Option Fault
  | [] => Option.none
  | value :: rest => obstacle? levels value <|> firstObstacle? levels rest

/-- What keeps the first of some named values that cannot be written from it. -/
def memberObstacle? (levels : Nat) : List (Text × Value) → Option Fault
  | [] => Option.none
  | (_, value) :: rest => obstacle? levels value <|> memberObstacle? levels rest

end

/-- Whether a value can be written. -/
def isWritable (value : Value) : Bool := (value.obstacle? depthLimit).isNone

/-- The text of a value. -/
def toText : Value → Text
  | text t => t
  | moment m => m.toText
  | value => value.inList

/-- The items of a value: those of a list, the code points of a text, the names of a table. -/
def items : Value → Except Fault (List Value)
  | list values => pure values
  | text t => pure (t.map fun c => .text [c])
  | table members => pure (members.map fun (name, _) => .text name)
  | _ => throw .wrongType

/-- The text that a value is, for operations that only texts know. -/
def text? : Value → Option Text
  | text t => some t
  | _ => Option.none

/-- A list of texts. -/
def texts (texts : List Text) : Value := list (texts.map text)

end Value

end Deadwood
