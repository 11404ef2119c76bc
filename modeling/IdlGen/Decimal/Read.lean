import IdlGen.Decimal.Double
import IdlGen.Text.Digit

/-!
# Reading decimals

A decimal is an optional sign, digits with at most one point among them, and an optional exponent.
Its double is the nearest one. Only the digits `0` to `9` have a value here.
-/

namespace IdlGen.Decimal

/-- The number that ASCII digits spell, most significant first. -/
def natOfDigits? (cs : List Char) : Option Nat :=
  cs.foldlM (fun n c => (Text.digitValue? 10 c).map (10 * n + ·)) 0

/-- Takes off a sign; `true` stands for minus. -/
def takeSign : List Char → Bool × List Char
  | '-' :: cs => (true, cs)
  | '+' :: cs => (false, cs)
  | cs => (false, cs)

/-- An exponent with its sign. -/
def exponentOf? (cs : List Char) : Option Int :=
  let (minus, digits) := takeSign cs
  if digits.isEmpty then none
  else (natOfDigits? digits).map fun n => if minus then -(n : Int) else n

/-- The double nearest to `mantissa * 10 ^ exponent`. The two early exits keep the powers small:
`10 ^ 310` is beyond every double and `10 ^ -324` is below half of the least positive one. -/
def toDouble (negative : Bool) (mantissa : Nat) (exponent : Int) : Double :=
  let places : Int := (Nat.toDigits 10 mantissa).length + exponent
  if mantissa = 0 || places < -324 then Double.ofMagnitude negative 0
  else if 310 < places then Double.ofMagnitude negative Double.infinityBits
  else
    Double.ofRatio negative (mantissa * Nat.pow 10 exponent.toNat)
      (Nat.pow 10 (-exponent).toNat)

/-- The double that a decimal spells. -/
def read? (cs : List Char) : Option Double := do
  let (negative, body) := takeSign cs
  let isMark (c : Char) : Bool := c = 'e' || c = 'E'
  let number := body.takeWhile (!isMark ·)
  let exponent ← match body.dropWhile (!isMark ·) with
    | [] => some 0
    | _ :: rest => exponentOf? rest
  let whole := number.takeWhile (· ≠ '.')
  let part := (number.dropWhile (· ≠ '.')).drop 1
  if whole.isEmpty && part.isEmpty then none
  else
    let mantissa ← natOfDigits? (whole ++ part)
    return toDouble negative mantissa (exponent - part.length)

end IdlGen.Decimal
