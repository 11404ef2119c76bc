import IdlGen.Decimal.Double
import IdlGen.Types.Enumeration

/-!
# Values

What constants and field defaults hold: literals that have been checked against a type. Equality of
values is equality of what they denote, so doubles compare as numbers and a value with a NaN in it
differs from itself.
-/

namespace IdlGen

inductive Value where
  | null
  | bool (value : Bool)
  | int (value : Int)
  | double (value : Double)
  | char (value : Char)
  | str (value : String)
  | binary (bytes : List UInt8)
  | list (items : List Value)
  | set (items : List Value)
  | map (entries : List (Value × Value))
  | enum (element : EnumElement)
deriving Repr, Inhabited

namespace Value

mutual

/-- Equality of values. -/
def equal : Value → Value → Bool
  | null, null => true
  | bool a, bool b => a = b
  | int a, int b => a = b
  | double a, double b => a.numericEq b
  | char a, char b => a = b
  | str a, str b => a = b
  | binary a, binary b => a = b
  | list a, list b => equalAll a b
  | set a, set b => equalAll a b
  | map a, map b => equalEntries a b
  | enum a, enum b => a = b
  | _, _ => false

/-- Equality item by item. -/
def equalAll : List Value → List Value → Bool
  | [], [] => true
  | a :: as, b :: bs => a.equal b && equalAll as bs
  | _, _ => false

/-- Equality entry by entry. -/
def equalEntries : List (Value × Value) → List (Value × Value) → Bool
  | [], [] => true
  | (k, v) :: as, (k', v') :: bs => k.equal k' && v.equal v' && equalEntries as bs
  | _, _ => false

end

/-- Adds an item at the end unless an equal one is there. -/
def addNew (items : List Value) (v : Value) : List Value :=
  if items.any (·.equal v) then items else items ++ [v]

/-- The items without those that equal an earlier one. -/
def distinct (items : List Value) : List Value := items.foldl addNew []

/-- Gives a key a value. A key that is there keeps its place. -/
def put (key value : Value) : List (Value × Value) → List (Value × Value)
  | [] => [(key, value)]
  | (k, v) :: rest => if k.equal key then (k, value) :: rest else (k, v) :: put key value rest

/-- The entries in order of their first key, each with the value of its last one. -/
def collapse (entries : List (Value × Value)) : List (Value × Value) :=
  entries.foldl (fun es (k, v) => put k v es) []

/-- The truth that a value holds; anything but `true` holds none. -/
def asBool : Value → Bool
  | bool b => b
  | _ => false

/-- The number behind an integer, a character or an element. -/
def asInt? : Value → Option Int
  | int n => some n
  | char c => some c.toNat
  | enum e => some e.value
  | _ => none

def asString? : Value → Option String
  | str s => some s
  | _ => none

end Value

end IdlGen
