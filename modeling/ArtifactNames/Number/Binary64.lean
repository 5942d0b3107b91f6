/-! Double-precision floating-point numbers in exact arithmetic: a decimal reads as the nearest
double, ties to even, and doubles are equal when their values are (not a number equals nothing). -/

namespace ArtifactNames.Number

/-- A double. A finite one is kept canonical: its significand is below `2^53`, its exponent lies
from `minExponent` to `maxExponent`, and a significand below `2^52` goes with `minExponent` only
(the subnormal doubles and the zeros). -/
inductive Binary64 where
  | finite (negative : Bool) (significand : Nat) (exponent : Int)
  | infinite (negative : Bool)
  | nan
  deriving DecidableEq, Repr, Inhabited

namespace Binary64

/-- Bits of the significand, the leading one included. -/
def precision : Nat := 53

/-- The exponent of the least subnormal double, `2^-1074`. -/
def minExponent : Int := -1074

/-- The exponent of the largest finite double, `(2^53 - 1) · 2^971`. -/
def maxExponent : Int := 971

def zero (negative : Bool) : Binary64 := .finite negative 0 minExponent

/-- `2^k`, by the power function itself. -/
def twoPow (k : Nat) : Nat := Nat.pow 2 k

/-- `10^k`, by the power function itself. -/
def tenPow (k : Nat) : Nat := Nat.pow 10 k

/-- The number of bits needed to write `n`. -/
def bitLength (n : Nat) : Nat := if n = 0 then 0 else Nat.log2 n + 1

/-- `num / den` rounded to the nearest natural number, a tie to the even one. -/
def roundRatio (num den : Nat) : Nat :=
  let q := num / den
  let r := num % den
  if 2 * r > den || (2 * r == den && q % 2 == 1) then q + 1 else q

/-- The ratio `num / (den · 2^e)` as a numerator and a denominator. -/
def scaleDown (num den : Nat) (e : Int) : Nat × Nat :=
  if 0 ≤ e then (num, den * twoPow e.toNat) else (num * twoPow (-e).toNat, den)

/-- The double nearest to `±num / den`, a tie to the even significand. The ratio lies in
`[2^(b-1), 2^(b+1))` for `b` the difference of the bit lengths, which places its binade within
one step; below the normal range the exponent stays at `minExponent`. -/
def ofRatio (negative : Bool) (num den : Nat) : Binary64 :=
  if num = 0 then zero negative
  else
    let guess : Int := (bitLength num : Int) - bitLength den - precision
    let (a, b) := scaleDown num den guess
    let binade := if a / b < twoPow precision then guess else guess + 1
    let exponent := max binade minExponent
    let (a, b) := scaleDown num den exponent
    let m := roundRatio a b
    let (m, exponent) := if m = twoPow precision then (m / 2, exponent + 1) else (m, exponent)
    if exponent > maxExponent then .infinite negative else .finite negative m exponent

/-- The number of decimal digits of `n`. -/
def decimalLength (n : Nat) : Nat := (Nat.toDigits 10 n).length

/-- The double nearest to `±digits · 10^exponent`. A decimal below `10^-324` is under half the
least subnormal and reads as zero; one of at least `10^310` is past the largest finite double and
reads as infinity; these two are settled without forming the power. -/
def ofDecimal (negative : Bool) (digits : Nat) (exponent : Int) : Binary64 :=
  if digits = 0 then zero negative
  else
    let size : Int := decimalLength digits
    if size + exponent ≤ -324 then zero negative
    else if size + exponent > 310 then .infinite negative
    else if 0 ≤ exponent then ofRatio negative (digits * tenPow exponent.toNat) 1
    else ofRatio negative digits (tenPow (-exponent).toNat)

/-- The value `±m · 2^e` as a signed numerator over a power of two. -/
def ratio (negative : Bool) (m : Nat) (e : Int) : Int × Nat :=
  let signed : Int := if negative then -(m : Int) else m
  if 0 ≤ e then (signed * (twoPow e.toNat : Int), 1) else (signed, twoPow (-e).toNat)

/-- Equality of values: finite doubles by their exact value, infinities by sign; not-a-number
equals nothing, itself included. -/
def equals : Binary64 → Binary64 → Bool
  | .finite s m e, .finite t n f =>
    let (a, b) := ratio s m e
    let (c, d) := ratio t n f
    a * d == c * b
  | .infinite s, .infinite t => s == t
  | _, _ => false

/-- Whether the double's value is exactly the integer `k`. -/
def equalsInt : Binary64 → Int → Bool
  | .finite s m e, k =>
    let (a, b) := ratio s m e
    a == k * b
  | _, _ => false

end Binary64

end ArtifactNames.Number
