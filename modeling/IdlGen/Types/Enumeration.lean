import IdlGen.Doc
import IdlGen.Integer
import IdlGen.Model.Error
import IdlGen.Types.Stamp

/-!
# Enumerations

An enumeration is built element by element and then closed. Each element carries the stamp of the
enumeration that built it, so an enumeration knows its own elements even among others of the same
name. An element without an id of its own takes the one past the highest id so far.
-/

namespace IdlGen

structure EnumElement where
  owner : Nat
  enumName : String
  name : String
  value : Int
deriving DecidableEq, Repr

/-- The name of the element behind the name of its enumeration. -/
def EnumElement.qname (e : EnumElement) : String := e.enumName ++ "." ++ e.name

/-- A closed enumeration. -/
structure Enumeration where
  id : Nat
  elements : List EnumElement
  docs : Docs
deriving DecidableEq, Repr

namespace Enumeration

/-- The element of a name. -/
def element? (e : Enumeration) (name : String) : Option EnumElement :=
  e.elements.find? (·.name = name)

/-- Whether the element was built by this enumeration. -/
def owns (e : Enumeration) (x : EnumElement) : Bool := x.owner = e.id

end Enumeration

/-- An enumeration that still takes elements. -/
structure EnumBuilder where
  id : Nat
  qname : String
  elements : List EnumElement
  nextId : Int
  docs : Docs
deriving DecidableEq, Repr

namespace EnumBuilder

/-- An enumeration without elements. -/
def new (id : Nat) (qname : String) (docs : Docs) : EnumBuilder := ⟨id, qname, [], 0, docs⟩

/-- Adds an element with the given id. -/
def addWithId (b : EnumBuilder) (name : String) (id : Int) : Except ModelError EnumBuilder :=
  if b.elements.any (·.name = name) then .error (.duplicateElementName name b.qname)
  else if b.elements.any (·.value = id) then .error (.duplicateElementId id b.qname)
  else
    .ok { b with
      elements := b.elements ++ [⟨b.id, b.qname, name, id⟩]
      nextId := if b.nextId ≤ id then id + 1 else b.nextId }

/-- Adds an element with the next id. -/
def add (b : EnumBuilder) (name : String) : Except ModelError EnumBuilder :=
  if IntWidth.w32.holds b.nextId then b.addWithId name b.nextId
  else .error (.elementIdsExhausted b.qname)

/-- Closes the enumeration. -/
def build (b : EnumBuilder) : Enumeration := ⟨b.id, b.elements, b.docs⟩

end EnumBuilder

end IdlGen
