import ArtifactNames.Number.Binary64

/-! The shortest decimal text of a double: the fewest digits that read back as it, nearest to its
value with ties to even, written positionally while the point stays within four places before and
sixteen after the digits, and otherwise with an exponent (`1e+16`, `1e-05`). -/

namespace ArtifactNames.Number

namespace Binary64

/-- Compares `a · 10^p` with `b · 2^q` exactly, by multiplying both sides by the powers that clear
their negative exponents. -/
def compareScaled (a : Nat) (p : Int) (b : Nat) (q : Int) : Ordering :=
  compare (a * tenPow p.toNat * twoPow (-q).toNat) (b * twoPow q.toNat * tenPow (-p).toNat)

/-- The rounding interval of a positive finite `m · 2^e`: its lower end, value and upper end, in units
of `2^(e-2)`. -/
def interval (m : Nat) (e : Int) : Nat × Nat × Nat :=
  let below := if m == twoPow (precision - 1) && e > minExponent then 1 else 2
  (4 * m - below, 4 * m, 4 * m + 2)

/-- Whether `c · 10^j` reads back as the positive finite `m · 2^e`. -/
def readsBack (m : Nat) (e : Int) (c : Nat) (j : Int) : Bool :=
  let (low, _, high) := interval m e
  let closed := m % 2 == 0
  let aboveLow := match compareScaled c j low (e - 2) with
    | .gt => true
    | .eq => closed
    | .lt => false
  let belowHigh := match compareScaled c j high (e - 2) with
    | .lt => true
    | .eq => closed
    | .gt => false
  aboveLow && belowHigh

/-- The place of the decimal point in `m · 2^e` from `k` on: the `k` with `10^(k-1) ≤ m · 2^e < 10^k`,
reached in at most `fuel` steps of one. -/
def settlePoint (m : Nat) (e : Int) : Nat → Int → Int
  | 0, k => k
  | fuel + 1, k =>
    if compareScaled 1 k m e != .gt then settlePoint m e fuel (k + 1)
    else if compareScaled 1 (k - 1) m e == .gt then settlePoint m e fuel (k - 1)
    else k

/-- The place of the decimal point in a positive `m · 2^e`, from `log10 2 ≈ 0.30103` and the bit
length, which it misses by at most one. -/
def pointOf (m : Nat) (e : Int) : Int :=
  settlePoint m e 4 (((bitLength m : Int) + e) * 30103 / 100000)

/-- The decimal `c · 10^j` of `n` significant digits that reads back as `m · 2^e` and is nearest to
it, when one does; `k` is the place of the point. Only the two grid points next to the value can
be nearest. -/
def candidate (m : Nat) (e k : Int) (n : Nat) : Option (Nat × Int) :=
  let j := k - n
  let lower := (m * twoPow e.toNat * tenPow (-j).toNat) / (twoPow (-e).toNat * tenPow j.toNat)
  let upper := lower + 1
  match readsBack m e lower j, readsBack m e upper j with
  | true, true =>
    match compareScaled (2 * lower + 1) j m (e + 1) with
    | .gt => some (lower, j)
    | .lt => some (upper, j)
    | .eq => if lower % 2 == 0 then some (lower, j) else some (upper, j)
  | true, false => some (lower, j)
  | false, true => some (upper, j)
  | false, false => none

/-- `c · 10^j` with the trailing zeros of `c` moved into the exponent, in at most `fuel` steps. -/
def trimZeros : Nat → Nat → Int → Nat × Int
  | 0, c, j => (c, j)
  | fuel + 1, c, j => if c ≠ 0 && c % 10 == 0 then trimZeros fuel (c / 10) (j + 1) else (c, j)

/-- The shortest digits of a positive finite `m · 2^e` and the place of the point after them. -/
def shortest (m : Nat) (e : Int) : List Char × Int :=
  let k := pointOf m e
  let found := (List.range' 1 17).findSome? (candidate m e k)
  let (c, j) := found.getD ((m * twoPow e.toNat) / twoPow (-e).toNat, 0)
  let (c, j) := trimZeros 20 c j
  let digits := Nat.toDigits 10 c
  (digits, digits.length + j)

/-- The exponent of a text in scientific form: its sign, then at least two digits. -/
def exponentText (x : Int) : String :=
  let digits := Nat.toDigits 10 x.natAbs
  let padded := if digits.length < 2 then '0' :: digits else digits
  (if x < 0 then "-" else "+") ++ String.ofList padded

/-- Digits with the point at `point`, positional or scientific as the module describes. -/
def layout (digits : List Char) (point : Int) : String :=
  let n := digits.length
  if -4 < point && point ≤ 16 then
    if point ≤ 0 then "0." ++ String.ofList (List.replicate (-point).toNat '0' ++ digits)
    else if point < n then
      String.ofList (digits.take point.toNat) ++ "." ++ String.ofList (digits.drop point.toNat)
    else String.ofList (digits ++ List.replicate (point.toNat - n) '0') ++ ".0"
  else
    let mantissa := match digits with
      | d :: rest@(_ :: _) => String.ofList (d :: '.' :: rest)
      | _ => String.ofList digits
    mantissa ++ "e" ++ exponentText (point - 1)

/-- The text of a double: the shortest digits that read back, laid out as the module describes; the
zeros keep their sign, and the infinities and not-a-number have words of their own. -/
def toText : Binary64 → String
  | .nan => "NaN"
  | .infinite negative => if negative then "-Infinity" else "Infinity"
  | .finite negative m e =>
    let sign := if negative then "-" else ""
    if m = 0 then sign ++ "0.0"
    else
      let (digits, point) := shortest m e
      sign ++ layout digits point

end Binary64

end ArtifactNames.Number
