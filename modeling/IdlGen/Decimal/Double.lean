/-!
# Double-precision numbers

A double is its 64 bits, so equality of values is equality of bits and `numericEq` is the
comparison of numbers, under which a NaN differs from itself and the two zeros agree. The real
number behind a finite double is `significand * 2 ^ exponent`, with sign.
-/

namespace IdlGen

/-- A binary64 number. -/
structure Double where
  bits : UInt64
deriving DecidableEq, Repr, Inhabited

namespace Double

/-- Whether the sign bit is set. -/
def negative (x : Double) : Bool := Nat.pow 2 63 ≤ x.bits.toNat

/-- The eleven exponent bits. -/
def biased (x : Double) : Nat := x.bits.toNat / Nat.pow 2 52 % Nat.pow 2 11

/-- The fifty-two fraction bits. -/
def fraction (x : Double) : Nat := x.bits.toNat % Nat.pow 2 52

def isFinite (x : Double) : Bool := x.biased < 2047

def isNaN (x : Double) : Bool := x.biased = 2047 && x.fraction ≠ 0

def isZero (x : Double) : Bool := x.biased = 0 && x.fraction = 0

/-- Equality of numbers. -/
def numericEq (x y : Double) : Bool :=
  !x.isNaN && !y.isNaN && (x.bits = y.bits || (x.isZero && y.isZero))

/-- Whether the number without its fraction is something else than zero. A NaN counts. -/
def reachesOne (x : Double) : Bool := 1023 ≤ x.biased

/-- The magnitude of a finite number is `significand * 2 ^ exponent`. -/
def significand (x : Double) : Nat :=
  if x.biased = 0 then x.fraction else Nat.pow 2 52 + x.fraction

def exponent (x : Double) : Int := (max x.biased 1 : Nat) - 1075

/-- A magnitude given by the low 63 bits, with a sign. -/
def ofMagnitude (negative : Bool) (magnitude : Nat) : Double :=
  ⟨UInt64.ofNat (magnitude + if negative then Nat.pow 2 63 else 0)⟩

/-- The low 63 bits of an infinity. They bound those of every finite number. -/
def infinityBits : Nat := 2047 * Nat.pow 2 52

/-- `num / den` to the nearest whole number, halves to the even one. -/
def roundHalfEven (num den : Nat) : Nat :=
  let floor := num / den
  let twice := 2 * (num % den)
  if twice < den then floor
  else if den < twice then floor + 1
  else floor + floor % 2

/-- The largest `e` with `2 ^ e ≤ num / den`, for positive `num` and `den`. -/
def floorLog2 (num den : Nat) : Int :=
  let guess : Int := (num.log2 : Int) - den.log2
  if num * Nat.pow 2 (-guess).toNat < den * Nat.pow 2 guess.toNat then guess - 1 else guess

/-- The double nearest to `num / den`, ties to the even significand. A magnitude beyond the largest
finite one becomes an infinity. -/
def ofRatio (negative : Bool) (num den : Nat) : Double :=
  if num = 0 then ofMagnitude negative 0
  else
    let q : Int := max (floorLog2 num den - 52) (-1074)
    let m := roundHalfEven (num * Nat.pow 2 (-q).toNat) (den * Nat.pow 2 q.toNat)
    -- A carry out of the significand moves into the exponent bits by itself.
    ofMagnitude negative (min infinityBits ((q + 1074).toNat * Nat.pow 2 52 + m))

/-- The double nearest to a whole number. -/
def ofInt (n : Int) : Double := ofRatio (n < 0) n.natAbs 1

/-- The whole number that a double is. -/
def toInt? (x : Double) : Option Int :=
  let magnitude := x.significand * Nat.pow 2 x.exponent.toNat
  let unit := Nat.pow 2 (-x.exponent).toNat
  if x.isFinite && magnitude % unit = 0 then
    some (if x.negative then -(magnitude / unit : Nat) else (magnitude / unit : Nat))
  else none

end Double

end IdlGen
