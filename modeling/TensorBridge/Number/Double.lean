/-!
# Numbers of double precision

Binary floating-point numbers as exact values: a finite one is a sign, a mantissa below `2 ^ 53` and an
exponent of two not below `-1074`; the mantissa is at least `2 ^ 52` unless the exponent is the least
one. A decimal numeral is read as the nearest such number, a tie going to the even mantissa, and a
number is written with the fewest decimal digits that read back, the nearest of those. No machine
arithmetic takes part, so both directions compute on exact natural numbers.
-/

namespace TensorBridge

/-- A number of double precision; a finite one stands for `mantissa * 2 ^ exponent` under its sign. -/
inductive Double
  | finite (negative : Bool) (mantissa : Nat) (exponent : Int)
  | infinite (negative : Bool)
  | nan
deriving DecidableEq, Repr

namespace Double

/-- Zero of the given sign. -/
def zero (negative : Bool) : Double := .finite negative 0 (-1074)

/-- Whether a number is zero, of either sign. -/
def isZero : Double → Bool
  | .finite _ mantissa _ => mantissa == 0
  | _ => false

/-! ## Reading -/

/-- The natural number nearest to `num / den`, a tie going to the even one. -/
def roundDiv (num den : Nat) : Nat :=
  let q := num / den
  let twice := 2 * (num % den)
  if twice < den then q else if den < twice then q + 1 else q + q % 2

/-- The nearest multiple of `2 ^ exponent` to `num / den`, as its factor. -/
def roundAt (num den : Nat) (exponent : Int) : Nat :=
  if 0 ≤ exponent then roundDiv num (den * Nat.pow 2 exponent.toNat)
  else roundDiv (num * Nat.pow 2 (-exponent).toNat) den

/-- The number nearest to the positive fraction `num / den`. -/
def ofFraction (negative : Bool) (num den : Nat) : Double :=
  let exponent : Int := max ((Nat.log2 num : Int) - (Nat.log2 den : Int) - 53) (-1074)
  let mantissa := roundAt num den exponent
  let (mantissa, exponent) :=
    if mantissa < Nat.pow 2 53 then (mantissa, exponent) else (roundAt num den (exponent + 1), exponent + 1)
  let (mantissa, exponent) := if mantissa < Nat.pow 2 53 then (mantissa, exponent) else (Nat.pow 2 52, exponent + 1)
  if 971 < exponent then .infinite negative else .finite negative mantissa exponent

/-- The number nearest to `digits * 10 ^ exponent`. A value of more than 310 places before the point is
infinite, and one that starts more than 330 places behind it is zero, whatever its digits. -/
def ofDecimal (negative : Bool) (digits : Nat) (exponent : Int) : Double :=
  let places : Int := (Nat.toDigits 10 digits).length + exponent
  if digits = 0 ∨ places < -330 then zero negative
  else if 310 < places then .infinite negative
  else if 0 ≤ exponent then ofFraction negative (digits * Nat.pow 10 exponent.toNat) 1
  else ofFraction negative digits (Nat.pow 10 (-exponent).toNat)

/-! ## The shortest decimal -/

/-- A positive fraction with the two ends of the interval of values that read as it; the ends belong to
the interval if `closed` holds. All three have the denominator `den`. -/
structure Target where
  low : Nat
  value : Nat
  high : Nat
  den : Nat
  closed : Bool

/-- The values that are read as `mantissa * 2 ^ exponent`. The neighbour below is half as far as the one
above where the mantissa is the least of its binade. -/
def target (mantissa : Nat) (exponent : Int) : Target :=
  let below := if mantissa = Nat.pow 2 52 ∧ -1074 < exponent then 1 else 2
  let scale := exponent - 2
  let up := Nat.pow 2 scale.toNat
  { low := (4 * mantissa - below) * up
    value := 4 * mantissa * up
    high := (4 * mantissa + 2) * up
    den := Nat.pow 2 (-scale).toNat
    closed := mantissa % 2 == 0 }

/-- Whether the fraction `num / den` is read as the target's value. -/
def Target.holds (t : Target) (num den : Nat) : Bool :=
  if t.closed then t.low * den ≤ num * t.den && num * t.den ≤ t.high * den
  else t.low * den < num * t.den && num * t.den < t.high * den

/-- The power of ten of a positive fraction's first digit: the greatest `e` with `10 ^ e ≤ num / den`.
-/
def leadingPower (num den : Nat) : Int :=
  if den ≤ num then ((Nat.toDigits 10 (num / den)).length : Int) - 1
  else
    let places := (Nat.toDigits 10 (den / num)).length
    if den ≤ num * Nat.pow 10 (places - 1) then -((places - 1 : Nat) : Int) else -(places : Int)

/-- A multiple `count * 10 ^ power` as a fraction. -/
def gridPoint (count : Nat) (power : Int) : Nat × Nat :=
  (count * Nat.pow 10 power.toNat, Nat.pow 10 (-power).toNat)

/-- The point of the grid `10 ^ power` that is read as the target's value: of the two neighbours of the
value the one that is, and of two the nearer, a tie going to the even count. -/
def Target.onGrid? (t : Target) (power : Int) : Option Nat :=
  let unit := gridPoint 1 power
  let below := t.value * unit.2 / (t.den * unit.1)
  let nearest := roundDiv (t.value * unit.2) (t.den * unit.1)
  let reads := fun count : Nat =>
    let point := gridPoint count power
    t.holds point.1 point.2
  if reads nearest then some nearest
  else if reads below then some below
  else if reads (below + 1) then some (below + 1)
  else none

/-- The coarsest grid, from `power` on down through `fuel` finer ones, with a point that is read as the
target's value; the count and the power of that point. -/
def Target.search (t : Target) : Nat → Int → Nat × Int
  | 0, power => (roundDiv (t.value * (gridPoint 1 power).2) (t.den * (gridPoint 1 power).1), power)
  | fuel + 1, power =>
    match t.onGrid? power with
    | some count => (count, power)
    | none => Target.search t fuel (power - 1)

/-- The digits of the shortest decimal of a positive number and the power of ten of the first one.
Seventeen digits always suffice. -/
def shortest (mantissa : Nat) (exponent : Int) : List Char × Int :=
  let t := target mantissa exponent
  let (count, power) := t.search 16 (leadingPower t.value t.den)
  let digits := Nat.toDigits 10 count
  (digits, power + (digits.length : Int) - 1)

/-! ## Writing -/

/-- Digits without the zeros at the end, but never fewer than one. -/
def dropFinalZeros (digits : List Char) : List Char :=
  match (digits.reverse.dropWhile (· = '0')).reverse with
  | [] => ['0']
  | kept => kept

/-- The exponent of a number in scientific notation: a sign and at least two digits. -/
def exponentChars (power : Int) : List Char :=
  let digits := Nat.toDigits 10 power.natAbs
  'e' :: (if power < 0 then '-' else '+') :: (if digits.length < 2 then '0' :: digits else digits)

/-- Digits with the point put in. The first digit's power of ten decides between positional notation,
from `10 ^ (-4)` to below `10 ^ 16`, which always has a digit after the point, and scientific notation,
which has a point only if digits follow. -/
def layout (digits : List Char) (power : Int) : List Char :=
  if -4 ≤ power ∧ power < 0 then '0' :: '.' :: List.replicate (power.natAbs - 1) '0' ++ digits
  else if 0 ≤ power ∧ power < 16 then
    let places := power.toNat + 1
    let whole := digits.take places ++ List.replicate (places - digits.length) '0'
    let fraction := digits.drop places
    whole ++ '.' :: (if fraction.isEmpty then ['0'] else fraction)
  else
    match digits with
    | [] => exponentChars power
    | [d] => d :: exponentChars power
    | d :: rest => d :: '.' :: rest ++ exponentChars power

/-- A number in decimal: the fewest digits that read back. -/
def text (x : Double) : String :=
  match x with
  | .nan => "nan"
  | .infinite negative => if negative then "-inf" else "inf"
  | .finite negative mantissa exponent =>
    let body :=
      if mantissa = 0 then ['0', '.', '0']
      else
        let (digits, power) := shortest mantissa exponent
        layout (dropFinalZeros digits) power
    String.ofList (if negative then '-' :: body else body)

end Double

end TensorBridge
