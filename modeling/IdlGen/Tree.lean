import IdlGen.Decimal.Double

/-!
# Ordered trees

Generation specs, option sections and the data that templates see are trees of scalars, lists and
objects. The members of an object keep the order in which their keys were first written.
-/

namespace IdlGen

inductive Tree where
  | null
  | bool (value : Bool)
  | int (value : Int)
  | double (value : Double)
  | str (value : String)
  | list (items : List Tree)
  | object (members : List (String × Tree))
deriving Repr, Inhabited

/-- The members of an object. -/
abbrev Section := List (String × Tree)

namespace Section

/-- The value of a key. -/
def get? (s : Section) (key : String) : Option Tree := s.lookup key

/-- Gives a key a value. A key that is there keeps its place. -/
def insert (key : String) (value : Tree) : Section → Section
  | [] => [(key, value)]
  | (k, v) :: rest => if k = key then (k, value) :: rest else (k, v) :: insert key value rest

/-- A section with the members of `top` written over it, one after the other. -/
def overlay (base top : Section) : Section :=
  top.foldl (fun s (key, value) => s.insert key value) base

/-- The section built from members in order, where a repeated key takes its last value. -/
def ofMembers (members : List (String × Tree)) : Section := overlay [] members

/-- The members in the order of their keys. -/
def sorted (s : Section) : Section := s.mergeSort fun a b => !(b.1 < a.1)

end Section

namespace Tree

/-- The members of an object; anything else has none. -/
def members : Tree → Section
  | object ms => ms
  | _ => []

mutual

/-- The same data with the members of every object in the order of their keys. -/
def sorted : Tree → Tree
  | list xs => list (sortedItems xs)
  | object ms => object (Section.sorted (sortedMembers ms))
  | t => t

def sortedItems : List Tree → List Tree
  | [] => []
  | t :: rest => sorted t :: sortedItems rest

def sortedMembers : List (String × Tree) → Section
  | [] => []
  | (key, t) :: rest => (key, sorted t) :: sortedMembers rest

end

end Tree

end IdlGen
