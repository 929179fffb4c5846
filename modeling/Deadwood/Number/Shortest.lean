import Deadwood.Number.Binary64
import Deadwood.Text.Basic

/-!
# Shortest decimal text

A finite number is written with the fewest digits that read back as the same
number.  Small and large magnitudes have an exponent, all others a point.
-/

namespace Deadwood.Binary64

/-- Compares `digits * 10 ^ power` with `amount * 2 ^ exponent`. -/
def compareDecimal (digits : Nat) (power : Int) (amount : Nat) (exponent : Int) : Ordering :=
  let left :=
    digits * (if 0 ≤ power then Nat.pow 10 power.natAbs else 1) *
      (if exponent < 0 then Nat.pow 2 exponent.natAbs else 1)
  let right :=
    amount * (if 0 ≤ exponent then Nat.pow 2 exponent.natAbs else 1) *
      (if power < 0 then Nat.pow 10 power.natAbs else 1)
  compare left right

/-- The whole part of `mantissa * 2 ^ exponent / 10 ^ power`. -/
def gridFloor (mantissa : Nat) (exponent power : Int) : Nat :=
  let num :=
    mantissa * (if 0 ≤ exponent then Nat.pow 2 exponent.natAbs else 1) *
      (if power < 0 then Nat.pow 10 power.natAbs else 1)
  let den :=
    (if exponent < 0 then Nat.pow 2 exponent.natAbs else 1) * (if 0 ≤ power then Nat.pow 10 power.natAbs else 1)
  num / den

/-- The power of ten of the leading digit. -/
def leadingPower (mantissa : Nat) (exponent : Int) : Int :=
  let guess : Int := (((mantissa.log2 : Int) + exponent) * 30103).fdiv 100000
  if gridFloor mantissa exponent (guess + 1) = 0 then
    if gridFloor mantissa exponent guess = 0 then guess - 1 else guess
  else guess + 1

/-- Whether a decimal reads back as `mantissa * 2 ^ exponent`: it lies in the interval of values that round to it. -/
def readsBack (mantissa : Nat) (exponent : Int) (digits : Nat) (power : Int) : Bool :=
  let below := if mantissa = Nat.pow 2 52 && leastExponent < exponent then 4 * mantissa - 1 else 4 * mantissa - 2
  let above := 4 * mantissa + 2
  let low := compareDecimal digits power below (exponent - 2)
  let high := compareDecimal digits power above (exponent - 2)
  if mantissa % 2 = 0 then low != .lt && high != .gt else low == .gt && high == .lt

/-- The decimal with a given number of digits that reads back, the nearer one if two do. -/
def onGrid (mantissa : Nat) (exponent : Int) (leading : Int) (count : Nat) : Option (Nat × Int) :=
  let power := leading - count + 1
  let low := gridFloor mantissa exponent power
  let fitsLow := 0 < low && readsBack mantissa exponent low power
  let fitsHigh := readsBack mantissa exponent (low + 1) power
  if fitsLow && fitsHigh then
    match compareDecimal (2 * low + 1) power (2 * mantissa) exponent with
    | .gt => some (low, power)
    | .lt => some (low + 1, power)
    | .eq => some (if low % 2 = 0 then low else low + 1, power)
  else if fitsLow then some (low, power)
  else if fitsHigh then some (low + 1, power)
  else none

/-- The fewest digits that read back, and the power of ten of the last one. -/
def shortest (mantissa : Nat) (exponent : Int) : Nat × Int :=
  let leading := leadingPower mantissa exponent
  ((List.range 17).findSome? fun n => onGrid mantissa exponent leading (n + 1)).getD
    (gridFloor mantissa exponent (leading - 16), leading - 16)

/-- The powers of ten of the first digit for which no exponent is written. -/
def positional (leading : Int) : Bool := -4 ≤ leading && leading < 16

/-- The text of digits times a power of ten. -/
def decimalText (digits : Nat) (power : Int) : List Char :=
  let shown := Nat.toDigits 10 digits
  let leading := power + shown.length - 1
  if positional leading then
    if 0 ≤ power then shown ++ List.replicate power.natAbs '0' ++ ['.', '0']
    else if 0 ≤ leading then
      let whole := leading.natAbs + 1
      shown.take whole ++ ['.'] ++ shown.drop whole
    else ['0', '.'] ++ List.replicate (leading.natAbs - 1) '0' ++ shown
  else
    let fraction := shown.drop 1
    let size := Nat.toDigits 10 leading.natAbs
    shown.take 1 ++ (if fraction = [] then [] else '.' :: fraction) ++ ['e', if leading < 0 then '-' else '+'] ++
      (if size.length < 2 then '0' :: size else size)

/-- The digits without zeros at their end, for which the power grows. -/
def dropZeros : Nat → Nat → Int → Nat × Int
  | 0, digits, power => (digits, power)
  | bound + 1, digits, power =>
    if digits % 10 = 0 && digits ≠ 0 then dropZeros bound (digits / 10) (power + 1) else (digits, power)

/-- The text of a number. -/
def toText : Binary64 → Text
  | nan => "nan"
  | infinite negative => if negative then "-inf" else "inf"
  | finite negative mantissa exponent =>
    let magnitude :=
      if mantissa = 0 then ['0', '.', '0']
      else
        let (digits, power) := shortest mantissa exponent
        let (digits, power) := dropZeros 17 digits power
        decimalText digits power
    Text.ofChars (if negative then '-' :: magnitude else magnitude)

end Deadwood.Binary64
