import IdlGen.Decimal.Double

/-!
# Shortest decimals

The shortest digits that read back as a given double: among the decimals with the fewest digits
inside the interval of reals that round to it, the one nearest to it. The interval holds its ends
when the significand is even. All arithmetic is on whole numbers over one denominator.
-/

namespace IdlGen.Decimal

/-- The reals that round to a positive double, over a common denominator. -/
structure Rounding where
  value : Nat
  lower : Nat
  upper : Nat
  den : Nat
  closed : Bool

/-- The neighbourhood of the finite double `x`. Below a power of two the next double is only half
as far away. -/
def Rounding.of (x : Double) : Rounding :=
  let m := x.significand
  let q := x.exponent
  let scale := Nat.pow 2 q.toNat
  let below := if x.fraction = 0 && 1 < x.biased then 1 else 2
  { value := 4 * m * scale
    lower := (4 * m - below) * scale
    upper := (4 * m + 2) * scale
    den := 4 * Nat.pow 2 (-q).toNat
    closed := m % 2 = 0 }

/-- Whether `num / den` lies in the interval, `num` and `den` positive. -/
def Rounding.holds (r : Rounding) (num den : Nat) : Bool :=
  let scaled := num * r.den
  if r.closed then r.lower * den ≤ scaled && scaled ≤ r.upper * den
  else r.lower * den < scaled && scaled < r.upper * den

/-- Digits and a place: `digits * 10 ^ exponent`. -/
structure Digits where
  digits : Nat
  exponent : Int
deriving Repr, DecidableEq

/-- The multiple of `10 ^ exponent` in the interval that is nearest to the value, the larger one
in a tie. -/
def Rounding.onGrid? (r : Rounding) (exponent : Int) : Option Digits :=
  let up := Nat.pow 10 exponent.toNat
  let down := Nat.pow 10 (-exponent).toNat
  -- The value in units of the grid is `num / unit`.
  let num := r.value * down
  let unit := r.den * up
  let floor := num / unit
  let below := 0 < floor && r.holds (floor * up) down
  let above := r.holds ((floor + 1) * up) down
  let nearAbove := unit ≤ 2 * (num % unit)
  if above && (nearAbove || !below) then some ⟨floor + 1, exponent⟩
  else if below then some ⟨floor, exponent⟩
  else none

/-- The least `k` with `num / den < 10 ^ k`, searched upwards from `k` for at most `fuel` steps. -/
def placesFrom (num den : Nat) : Nat → Int → Int
  | 0, k => k
  | fuel + 1, k =>
    if num * Nat.pow 10 (-k).toNat < den * Nat.pow 10 k.toNat then k
    else placesFrom num den fuel (k + 1)

/-- The digits of a positive finite double. Seventeen digits always suffice. -/
def shortest (x : Double) : Digits :=
  let r := Rounding.of x
  let k := placesFrom r.value r.den 640 (-324)
  let grids := (List.range 17).map fun n => k - (n + 1 : Nat)
  let d := (grids.findSome? r.onGrid?).getD ⟨0, 0⟩
  -- One digit rounded up to the next power of ten.
  if d.digits = 10 then ⟨1, d.exponent + 1⟩ else d

/-- `digits * 10 ^ exponent` in positional notation, with at least one digit on either side of the
point. -/
def Digits.positional (d : Digits) : List Char :=
  let ds := Nat.toDigits 10 d.digits
  if 0 ≤ d.exponent then ds ++ List.replicate d.exponent.toNat '0' ++ ['.', '0']
  else
    let part := (-d.exponent).toNat
    let padded := List.replicate (part + 1 - ds.length) '0' ++ ds
    padded.take (padded.length - part) ++ '.' :: padded.drop (padded.length - part)

/-- `digits * 10 ^ exponent` with one digit before the point and a power of ten. -/
def Digits.scientific (d : Digits) : List Char :=
  let ds := Nat.toDigits 10 d.digits
  let power : Int := d.exponent + (ds.length - 1 : Nat)
  let body := match ds with
    | [] => []
    | [c] => [c]
    | c :: rest => c :: '.' :: rest
  body ++ 'e' :: (toString power).toList

/-- The text of a double: shortest digits, positional where the number of digits before the point is
above `low` and at most 16, scientific elsewhere. Zeros after the point count as negative digits. -/
def renderAbove (low : Int) (x : Double) : String :=
  let sign := if x.negative then ['-'] else []
  if x.isNaN then "NaN"
  else if !x.isFinite then String.ofList (sign ++ ['i', 'n', 'f'])
  else if x.isZero then String.ofList (sign ++ ['0', '.', '0'])
  else
    let d := shortest x
    let places : Int := d.exponent + (Nat.toDigits 10 d.digits).length
    if low < places && places ≤ 16 then String.ofList (sign ++ d.positional)
    else String.ofList (sign ++ d.scientific)

/-- The text of a double: shortest digits, positional from `10 ^ -4` up to but not including
`10 ^ 16`, scientific outside. -/
def render (x : Double) : String := renderAbove (-4) x

end IdlGen.Decimal
