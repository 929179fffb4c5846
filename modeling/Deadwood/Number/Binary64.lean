/-!
# Binary numbers of 64 bits

A floating-point number by its value: a whole mantissa times a power of two.
`Binary64.ofRatio` rounds a quotient to the nearest such number, and to the one
with an even mantissa if two are equally near.
-/

namespace Deadwood

/-- A floating-point number.  A finite one is `mantissa * 2 ^ exponent`. -/
inductive Binary64 where
  | nan
  | infinite (negative : Bool)
  | finite (negative : Bool) (mantissa : Nat) (exponent : Int)
  deriving DecidableEq, Repr

namespace Binary64

/-- The least exponent. -/
def leastExponent : Int := -1074

/-- The greatest exponent. -/
def greatestExponent : Int := 971

/-- The quotient rounded to a whole number, a half to the even neighbour. -/
def roundDiv (num den : Nat) : Nat :=
  let whole := num / den
  let twice := 2 * (num % den)
  if twice < den then whole
  else if den < twice then whole + 1
  else if whole % 2 = 0 then whole else whole + 1

/-- The quotient of `num` and `den * 2 ^ exponent`, rounded. -/
def mantissaAt (num den : Nat) (exponent : Int) : Nat :=
  if exponent ≤ 0 then roundDiv (num * Nat.pow 2 exponent.natAbs) den
  else roundDiv num (den * Nat.pow 2 exponent.natAbs)

/-- The number nearest to a quotient. -/
def ofRatio (negative : Bool) (num den : Nat) : Binary64 :=
  if num = 0 then finite negative 0 leastExponent
  else
    let guess : Int := max leastExponent ((num.log2 : Int) - den.log2 - 53)
    -- the guess is at most two below the exponent that leaves 53 bits
    let fits := fun (exponent : Int) => mantissaAt num den exponent < Nat.pow 2 53
    let exponent := if fits guess then guess else if fits (guess + 1) then guess + 1 else guess + 2
    let mantissa := mantissaAt num den exponent
    if greatestExponent < exponent then infinite negative else finite negative mantissa exponent

/-- The number nearest to `digits * 10 ^ exponent`. -/
def ofDecimal (negative : Bool) (digits : Nat) (exponent : Int) : Binary64 :=
  if digits = 0 then finite negative 0 leastExponent
  else
    let size : Int := (Nat.toDigits 10 digits).length + exponent
    if 400 < size then infinite negative
    else if size < -400 then finite negative 0 leastExponent
    else if 0 ≤ exponent then ofRatio negative (digits * Nat.pow 10 exponent.natAbs) 1
    else ofRatio negative digits (Nat.pow 10 exponent.natAbs)

/-- Whether a number is zero. -/
def isZero : Binary64 → Bool
  | finite _ mantissa _ => mantissa = 0
  | _ => false

/-- Whether a number is at most zero; no comparison with what is no number holds. -/
def notPositive : Binary64 → Bool
  | nan => false
  | infinite negative => negative
  | finite negative mantissa _ => negative || mantissa = 0

/-- Whether a number is less than one. -/
def belowOne : Binary64 → Bool
  | nan => false
  | infinite negative => negative
  | finite negative mantissa exponent =>
    negative || mantissa = 0 || (exponent < 0 && mantissa < Nat.pow 2 exponent.natAbs)

/-- The whole part of a finite number times a power of two. -/
def wholeScaled (mantissa : Nat) (exponent : Int) : Nat :=
  if 0 ≤ exponent then mantissa * Nat.pow 2 exponent.natAbs else mantissa / Nat.pow 2 exponent.natAbs

end Binary64

end Deadwood
