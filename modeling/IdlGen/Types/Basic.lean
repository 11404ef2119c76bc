import IdlGen.Types.Value

/-!
# Types

A type is a primitive, a container over other types, or a named enumeration or record. Records are
structs, unions and exceptions. Every type but the primitives carries a stamp, and two types are the
same type exactly when they have the same stamp; for primitives, when they are the same primitive.
-/

namespace IdlGen

/-- The built-in scalar types. -/
inductive Primitive where
  | bool
  | int (width : IntWidth)
  | double
  | string
  | binary
  | void
deriving DecidableEq, Repr

/-- Notes on a declaration, sorted by key. -/
abbrev Annotations := List (String × String)

/-- Gives a key a value. -/
def Annotations.insert (key value : String) : Annotations → Annotations
  | [] => [(key, value)]
  | (k, v) :: rest =>
    if key = k then (key, value) :: rest
    else if key < k then (key, value) :: (k, v) :: rest
    else (k, v) :: Annotations.insert key value rest

/-- A field of a record, an argument or a thrown exception, with a type from `τ`. -/
structure Field (τ : Type) where
  id : Int
  name : String
  type : τ
  required : Bool := true
  default : Option Value := none
  annotations : Annotations := []
  docs : Docs := none

/-- Fields in order. No two have the same id or the same name; `owner` is named in errors. -/
structure FieldSet (τ : Type) where
  owner : String
  fields : List (Field τ) := []

namespace FieldSet

variable {τ : Type}

/-- Adds a field at the end. The id is looked at before the name. -/
def add (s : FieldSet τ) (f : Field τ) : Except ModelError (FieldSet τ) :=
  if s.fields.any (·.id = f.id) then .error (.duplicateFieldId f.id s.owner)
  else if s.fields.any (·.name = f.name) then .error (.duplicateFieldName f.name s.owner)
  else .ok { s with fields := s.fields ++ [f] }

@[grind →] theorem fields_add {s s' : FieldSet τ} {f : Field τ} (added : s.add f = .ok s') :
    s'.fields = s.fields ++ [f] := by
  unfold add at added
  split at added
  · cases added
  · split at added <;> cases added
    rfl

/-- The field of a name. -/
def field? (s : FieldSet τ) (name : String) : Option (Field τ) := s.fields.find? (·.name = name)

def hasField (s : FieldSet τ) (name : String) : Bool := (s.field? name).isSome

end FieldSet

/-- The body of a struct, union or exception. -/
structure Record (τ : Type) where
  fields : FieldSet τ
  isUnion : Bool
  annotations : Annotations
  docs : Docs

inductive Ty where
  | prim (p : Primitive)
  | list (stamp : Nat) (elem : Ty)
  | set (stamp : Nat) (elem : Ty)
  | map (stamp : Nat) (key value : Ty)
  | enum (stamp : Nat) (model : Option String) (name : String) (body : Enumeration)
  | record (stamp : Nat) (isException : Bool) (model : Option String) (name : String)
      (body : Record Ty)

/-- What kind of type a type is. -/
inductive Category where
  | boolean | integer | floatingPoint | string | binary | void | enum | struct | exception
  | container
deriving DecidableEq, Repr

def Category.text : Category → String
  | boolean => "BOOLEAN"
  | integer => "INTEGER"
  | floatingPoint => "FLOATING_POINT"
  | string => "STRING"
  | binary => "BINARY"
  | void => "VOID"
  | enum => "ENUM"
  | struct => "STRUCT"
  | exception => "EXCEPTION"
  | container => "CONTAINER"

namespace Primitive

def name : Primitive → String
  | bool => "bool"
  | int .w8 => "byte"
  | int .w16 => "i16"
  | int .w32 => "i32"
  | int .w64 => "i64"
  | double => "double"
  | string => "string"
  | binary => "binary"
  | void => "void"

def category : Primitive → Category
  | bool => .boolean
  | int _ => .integer
  | double => .floatingPoint
  | string => .string
  | binary => .binary
  | void => .void

/-- The primitives that a declaration can name. A function's result can also be `void`. -/
def nameable : List Primitive :=
  [bool, int .w8, int .w16, int .w32, int .w64, double, string, binary]

end Primitive

namespace Ty

/-- The type of functions without a result. -/
def void : Ty := prim .void

/-- The stamp of a type that is no primitive. -/
def stamp? : Ty → Option Nat
  | prim _ => none
  | list s _ => some s
  | set s _ => some s
  | map s _ _ => some s
  | enum s _ _ _ => some s
  | record s _ _ _ _ => some s

/-- Whether both are the same type. -/
def same : Ty → Ty → Bool
  | prim p, prim q => p = q
  | s, t => s.stamp?.isSome && s.stamp? = t.stamp?

/-- The model that declares a named type. -/
def modelName? : Ty → Option String
  | enum _ model _ _ => model
  | record _ _ model _ _ => model
  | _ => none

/-- The name behind the name of the model. A container's name is made from those of its elements. -/
def qname : Ty → String
  | prim p => p.name
  | list _ e => "list<" ++ e.qname ++ ">"
  | set _ e => "set<" ++ e.qname ++ ">"
  | map _ k v => "map<" ++ k.qname ++ "," ++ v.qname ++ ">"
  | enum _ model name _ => qualify model name
  | record _ _ model name _ => qualify model name

/-- The name as declared. -/
def name : Ty → String
  | enum _ _ name _ => name
  | record _ _ _ name _ => name
  | t => t.qname

def category : Ty → Category
  | prim p => p.category
  | enum .. => .enum
  | record _ isException .. => if isException then .exception else .struct
  | _ => .container

/-- The primitive that a type widens to. -/
def base? : Ty → Option Primitive
  | enum .. => some (.int .w32)
  | _ => none

def primitive? : Ty → Option Primitive
  | prim p => some p
  | _ => none

def enumeration? : Ty → Option Enumeration
  | enum _ _ _ body => some body
  | _ => none

def record? : Ty → Option (Record Ty)
  | record _ _ _ _ body => some body
  | _ => none

/-- The types that a container holds: one for a list or set, key and value for a map. -/
def elements : Ty → List Ty
  | list _ e => [e]
  | set _ e => [e]
  | map _ k v => [k, v]
  | _ => []

def isNumeric (t : Ty) : Bool := t.category = .integer || t.category = .floatingPoint

/-- Numbers and truth values, for which `null` is no value. -/
def isScalar (t : Ty) : Bool := t.isNumeric || t.category = .boolean

def isEnum (t : Ty) : Bool := t.category = .enum

def isStruct (t : Ty) : Bool := t.category = .struct

def isException (t : Ty) : Bool := t.category = .exception

def isContainer (t : Ty) : Bool := t.category = .container

def isVoid (t : Ty) : Bool := t.category = .void

def isList : Ty → Bool
  | list .. => true
  | _ => false

def isSet : Ty → Bool
  | set .. => true
  | _ => false

def isMap : Ty → Bool
  | map .. => true
  | _ => false

def isUnion (t : Ty) : Bool := t.record?.any (·.isUnion)

/-- Whether the type is declared by the model or is a container over such a type. -/
def ownedBy (name : String) : Ty → Bool
  | list _ e => e.ownedBy name
  | set _ e => e.ownedBy name
  | map _ k v => k.ownedBy name || v.ownedBy name
  | t => t.modelName? = some name

end Ty

end IdlGen
