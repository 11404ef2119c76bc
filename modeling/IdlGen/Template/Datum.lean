import IdlGen.Decimal.Shortest
import IdlGen.Text.Escaped
import IdlGen.Tree

/-!
# Data in templates

An expression has a tree for its value, or it stands for how far a repetition is or for a function,
or it is undefined. Undefined prints as nothing, has no items and counts as false, so only asking
for a part of it is an error.
-/

namespace IdlGen

namespace Tree

/-- The text of a double on its own: shortest digits, never a power of ten. -/
def doubleText (x : Double) : String :=
  let sign := if x.negative then ['-'] else []
  if !x.isFinite || x.isZero then Decimal.render x
  else String.ofList (sign ++ (Decimal.shortest x).positional)

mutual

/-- The text of a tree. Inside a list or an object, texts stand in quotes and doubles may have a
power of ten. -/
def text (nested : Bool) : Tree → String
  | null => "None"
  | bool b => if b then "True" else "False"
  | int n => toString n
  | double x => if nested then Decimal.render x else doubleText x
  | str s => if nested then Text.showString s else s
  | list xs => "[" ++ ", ".intercalate (texts xs) ++ "]"
  | object ms => "\x7b" ++ ", ".intercalate (memberTexts ms) ++ "\x7d"

def texts : List Tree → List String
  | [] => []
  | t :: rest => text true t :: texts rest

def memberTexts : List (String × Tree) → List String
  | [] => []
  | (key, t) :: rest => (Text.showString key ++ ": " ++ text true t) :: memberTexts rest

end

/-- The number that a scalar counts as: a truth value is one or zero. -/
def number? : Tree → Option (Int ⊕ Double)
  | bool b => some (.inl (if b then 1 else 0))
  | int n => some (.inl n)
  | double x => some (.inr x)
  | _ => none

/-- The largest numbers of 64 and of 128 bits. -/
def widthLimits : List Int := [Nat.pow 2 64 - 1, Nat.pow 2 128 - 1]

/-- Whether a whole number and a double are the same. The number has to come back from a double
unchanged, which the largest number of a width does because it cannot become larger. -/
def sameAsDouble (n : Int) (x : Double) : Bool :=
  let rounded := Double.ofInt n
  rounded.numericEq x && (rounded.toInt? = some n || widthLimits.contains n)

/-- Whether two scalars are the same number. -/
def sameNumber (a b : Tree) : Bool :=
  match a.number?, b.number? with
  | some (.inl m), some (.inl n) => m = n
  | some (.inl m), some (.inr y) => sameAsDouble m y
  | some (.inr x), some (.inl n) => sameAsDouble n x
  | some (.inr x), some (.inr y) => x.numericEq y
  | _, _ => false

mutual

/-- Whether two trees are the same data; the order of members does not matter. -/
def same : Tree → Tree → Bool
  | null, b => match b with | null => true | _ => false
  | str s, b => match b with | str t => s = t | _ => false
  | list xs, b => match b with | list ys => sameAll xs ys | _ => false
  | object ms, b =>
    match b with
    | object ns => ms.length = ns.length && sameMembers ms ns
    | _ => false
  | bool v, b => sameNumber (bool v) b
  | int n, b => sameNumber (int n) b
  | double x, b => sameNumber (double x) b

def sameAll : List Tree → List Tree → Bool
  | [], [] => true
  | a :: as, b :: bs => same a b && sameAll as bs
  | _, _ => false

def sameMembers : List (String × Tree) → Section → Bool
  | [], _ => true
  | (key, a) :: rest, ns =>
    (match ns.get? key with | some b => same a b | none => false) && sameMembers rest ns

end

end Tree

/-- How far a repetition is. -/
structure Progress where
  position : Nat
  /-- The number of items, if it is known beforehand. -/
  count : Option Nat
  previous : Option Tree
  next : Option Tree
deriving Repr, Inhabited

/-- The value of an expression. -/
inductive Datum where
  | undefined
  | tree (value : Tree)
  | progress (value : Progress)
  | function (name : String)
deriving Repr, Inhabited

namespace Datum

/-- A tree that may be missing. -/
def ofOption : Option Tree → Datum
  | none => undefined
  | some t => tree t

def ofNat (n : Nat) : Datum := tree (.int n)

def ofBool (b : Bool) : Datum := tree (.bool b)

end Datum

namespace Progress

/-- What can be asked about a repetition. -/
def keys : List String :=
  ["index0", "index", "length", "revindex", "revindex0", "first", "last", "depth", "depth0",
   "previtem", "nextitem"]

/-- What a repetition tells. What depends on the number of items is undefined where that is not
known, but no item is known to be the last then. -/
def member (p : Progress) : String → Datum
  | "index0" => .ofNat p.position
  | "index" => .ofNat (p.position + 1)
  | "length" => .ofOption (p.count.map fun n => .int n)
  | "revindex" => .ofOption (p.count.map fun n => .int (n - p.position : Nat))
  | "revindex0" => .ofOption (p.count.map fun n => .int (n - p.position - 1 : Nat))
  | "first" => .ofBool (p.position = 0)
  | "last" => .ofBool (p.count = some (p.position + 1))
  | "depth" => .ofNat 1
  | "depth0" => .ofNat 0
  | "previtem" => .ofOption p.previous
  | "nextitem" => .ofOption p.next
  | _ => .undefined

def text (p : Progress) : String :=
  s!"<loop {p.position}/" ++ (p.count.map fun n => toString n).getD "?" ++ ">"

end Progress

namespace Datum

/-- What a template writes for a value. -/
def print : Datum → String
  | undefined => ""
  | tree t => t.text false
  | progress p => p.text
  | function name => name

/-- Whether a value counts as true: it is there, and it is not empty, zero or false. -/
def isTrue : Datum → Bool
  | undefined => false
  | tree .null => false
  | tree (.bool b) => b
  | tree (.int n) => n ≠ 0
  | tree (.double x) => !x.isZero
  | tree (.str s) => !s.isEmpty
  | tree (.list xs) => !xs.isEmpty
  | tree (.object ms) => !ms.isEmpty
  | progress _ => true
  | function _ => true

/-- Whether two values are the same. Only one repetition is in view at a time. -/
def same : Datum → Datum → Bool
  | undefined, undefined => true
  | tree a, tree b => a.same b
  | progress _, progress _ => true
  | function f, function g => f = g
  | _, _ => false

/-- The characters of a text. -/
def characters (s : String) : List Tree := s.toList.map fun c => .str c.toString

/-- The items of a value: of a list its own, of a text its characters, of an object or a repetition
its keys. -/
def items? : Datum → Option (List Tree)
  | undefined => some []
  | tree .null => some []
  | tree (.list xs) => some xs
  | tree (.str s) => some (characters s)
  | tree (.object ms) => some (ms.map fun m => .str m.1)
  | progress _ => some (Progress.keys.map .str)
  | _ => none

/-- Whether the number of items is known before they have been gone through. The characters of a
text are found one by one. -/
def isCounted : Datum → Bool
  | tree (.str _) => false
  | _ => true

/-- The number that a value counts as where a place or a size is asked for. -/
def whole? : Datum → Option Int
  | tree (.bool b) => some (if b then 1 else 0)
  | tree (.int n) => some n
  | tree (.double x) => x.toInt?.filter fun n => n.natAbs ≤ Nat.pow 2 63
  | _ => none

/-- The item at a place; one below zero is counted from the end. -/
def itemAt? (xs : List Tree) (place : Int) : Option Tree :=
  if 0 ≤ place then xs[place.toNat]?
  else if place.natAbs ≤ xs.length then xs[xs.length - place.natAbs]?
  else none

/-- The member of a value. -/
def member (d : Datum) (key : String) : Datum :=
  match d with
  | tree t => ofOption (t.members.get? key)
  | progress p => p.member key
  | _ => undefined

/-- The item of a value: by place in a list or a text, else by key. -/
def item (d index : Datum) : Datum :=
  match d, index with
  | tree (.list xs), _ => ofOption (index.whole?.bind (itemAt? xs))
  | tree (.str s), _ => ofOption (index.whole?.bind (itemAt? (characters s)))
  | _, tree (.str key) => d.member key
  | _, _ => undefined

end Datum

end IdlGen
