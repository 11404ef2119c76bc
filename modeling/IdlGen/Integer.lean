import IdlGen.Text.Digit

/-!
# Integers of a fixed width

The four widths with their ranges, and how an integer is spelled: a decimal with an optional sign,
or `0x` with hexadecimal digits, which give the bits of the number and so reach the whole unsigned
range.
-/

namespace IdlGen

/-- The widths an integer can have. -/
inductive IntWidth where
  | w8 | w16 | w32 | w64
deriving DecidableEq, Repr

namespace IntWidth

def bits : IntWidth → Nat
  | w8 => 8
  | w16 => 16
  | w32 => 32
  | w64 => 64

/-- The least number of the width. -/
def min (w : IntWidth) : Int := -(Nat.pow 2 (w.bits - 1) : Nat)

/-- The greatest number of the width. -/
def max (w : IntWidth) : Int := (Nat.pow 2 (w.bits - 1) : Nat) - 1

/-- Whether the number is in the signed range. -/
def holds (w : IntWidth) (n : Int) : Bool := w.min ≤ n && n ≤ w.max

/-- The name of the width in messages about literals. -/
def literalName : IntWidth → String
  | w8 => "byte"
  | w16 => "short"
  | w32 => "int"
  | w64 => "long"

end IntWidth

namespace Integer

/-- Why a spelling is no number. -/
inductive Fault where
  | malformed
  | outOfRange
deriving DecidableEq, Repr

/-- Reads digits from the left, starting from `n`, and stops at the first digit that is none or
that takes the number above `bound`. -/
def readDigits (base bound : Nat) (n : Nat) : List Char → Except Fault Nat
  | [] => .ok n
  | c :: rest =>
    match Text.digitValue? base c with
    | none => .error .malformed
    | some d =>
      if bound < n * base + d then .error .outOfRange else readDigits base bound (n * base + d) rest

/-- Digits with an optional sign. -/
def readDecimal (w : IntWidth) (cs : List Char) : Except Fault Int :=
  let magnitude (bound : Int) (digits : List Char) : Except Fault Nat :=
    if digits.isEmpty then .error .malformed else readDigits 10 bound.toNat 0 digits
  match cs with
  | '-' :: digits => (magnitude (-w.min) digits).map fun n => -(n : Int)
  | '+' :: digits => (magnitude w.max digits).map Int.ofNat
  | digits => (magnitude w.max digits).map Int.ofNat

/-- Hexadecimal digits, read at twice the width. What fits the unsigned range is taken as the
two's complement bits of the number. -/
def readHex (w : IntWidth) (digits : List Char) : Except Fault Int := do
  let n ← readDigits 16 (Nat.pow 2 (2 * w.bits - 1) - 1) 0 digits
  if Nat.pow 2 w.bits ≤ n then .error .outOfRange
  else .ok (Int.bmod n (Nat.pow 2 w.bits))

/-- Reads a decimal or hexadecimal number of the given width. -/
def read (w : IntWidth) : List Char → Except Fault Int
  | '0' :: 'x' :: d :: rest => readHex w (d :: rest)
  | '0' :: 'X' :: d :: rest => readHex w (d :: rest)
  | cs => readDecimal w cs

end Integer

end IdlGen
