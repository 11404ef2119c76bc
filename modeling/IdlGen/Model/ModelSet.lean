import IdlGen.Model.Basic

/-!
# Model sets

The models loaded so far share one registry of types: a name stands for at most one type, and a
container over given types is made once. The name of a model that is being built is pending until
the model is finished or abandoned; abandoning it also takes its types out of the registry, with
every container over one of them.
-/

namespace IdlGen

structure ModelSet where
  models : List Model := []
  pending : List String := []
  types : List (String × Ty) := Primitive.nameable.map fun p => (p.name, .prim p)
  stamps : Stamps := {}

namespace ModelSet

/-- A set without models, which knows the primitive types. -/
def empty : ModelSet := {}

/-- The model of a name; the one finished last, should there be several. -/
def model? (s : ModelSet) (name : String) : Option Model :=
  s.models.reverse.find? (·.name = some name)

def isLoaded (s : ModelSet) (name : String) : Bool := (s.model? name).isSome

def isPending (s : ModelSet) (name : String) : Bool := s.pending.contains name

/-- The type of a name. -/
def type? (s : ModelSet) (name : String) : Option Ty := s.types.lookup name

/-- Gives out a stamp. -/
def takeStamp (s : ModelSet) : Nat × ModelSet :=
  let (stamp, stamps) := s.stamps.take
  (stamp, { s with stamps })

/-- Starts a model and makes its name pending. -/
def create (s : ModelSet) (name : String) : Except ModelError (Model × ModelSet) :=
  if s.isLoaded name then .error (.duplicateModel name)
  else if s.isPending name then .error (.circularInclude name)
  else .ok ({ name := some name }, { s with pending := name :: s.pending })

/-- Puts a finished model into the set. A model without a name stays outside. -/
def finish (s : ModelSet) (m : Model) : ModelSet :=
  match m.name with
  | some name =>
    { s with pending := s.pending.filter (· ≠ name), models := s.models ++ [m] }
  | none => s

/-- Gives up the model of a name. -/
def abandon (s : ModelSet) (name : String) : ModelSet :=
  { s with
    pending := s.pending.filter (· ≠ name)
    types := s.types.filter fun (_, t) => !t.ownedBy name }

/-- Lets a name stand for a type. Doing so again with the same type changes nothing. -/
def register (s : ModelSet) (name : String) (t : Ty) : Except ModelError ModelSet :=
  match s.type? name with
  | some known => if known.same t then .ok s else .error (.typeAlreadyRegistered name)
  | none => .ok { s with types := s.types ++ [(name, t)] }

/-- The type that a name stands for, or else the one that `make` builds from a fresh stamp, which
the name then stands for. -/
def typeOrNew (s : ModelSet) (name : String) (make : Nat → Ty) : Ty × ModelSet :=
  match s.type? name with
  | some known => (known, s)
  | none =>
    let (stamp, s) := s.takeStamp
    let t := make stamp
    (t, { s with types := s.types ++ [(name, t)] })

/-- The list type over a type. -/
def listType (s : ModelSet) (elem : Ty) : Ty × ModelSet :=
  s.typeOrNew (Ty.list 0 elem).qname fun stamp => .list stamp elem

/-- The set type over a type. -/
def setType (s : ModelSet) (elem : Ty) : Ty × ModelSet :=
  s.typeOrNew (Ty.set 0 elem).qname fun stamp => .set stamp elem

/-- The map type from one type to another. -/
def mapType (s : ModelSet) (key value : Ty) : Ty × ModelSet :=
  s.typeOrNew (Ty.map 0 key value).qname fun stamp => .map stamp key value

/-- Starts an enumeration. -/
def newEnum (s : ModelSet) (qname : String) (docs : Docs) : EnumBuilder × ModelSet :=
  let (stamp, s) := s.takeStamp
  (EnumBuilder.new stamp qname docs, s)

end ModelSet

end IdlGen
