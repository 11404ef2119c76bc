import IdlGen.Model.Service
import IdlGen.Types.Literal

/-!
# Models

A model is what one definition file declares: constants, enumerations, records and services in one
flat space of names, with the models it includes and its namespaces. An enumeration `E` also brings
the names `E.A` of its elements.
-/

namespace IdlGen

/-- The namespace that generated code for a generator belongs to. -/
structure Namespace where
  generator : String
  name : String
deriving DecidableEq, Repr

/-- The generator that stands for all those without a namespace of their own. -/
def Namespace.anyGenerator : String := "*"

structure Model where
  name : Option String
  includes : List String := []
  namespaces : List Namespace := []
  consts : List Constant := []
  elements : List (String × EnumElement) := []
  enums : List Ty := []
  structs : List Ty := []
  exceptions : List Ty := []
  services : List Service := []

/-- What a name can stand for. -/
inductive Symbol where
  | const (constant : Constant)
  | element (element : EnumElement)
  | enum (type : Ty)
  | struct (type : Ty)
  | exception (type : Ty)
  | service (service : Service)

namespace Symbol

def kind : Symbol → String
  | const _ => "const"
  | element _ => "enum element"
  | enum _ => "enum"
  | struct t => if t.isUnion then "union" else "struct"
  | exception _ => "exception"
  | service _ => "service"

def qname : Symbol → String
  | const c => c.qname
  | element e => e.qname
  | enum t => t.qname
  | struct t => t.qname
  | exception t => t.qname
  | service s => s.qname

/-- The symbol as messages show it. -/
def render (s : Symbol) : String := s.kind ++ " " ++ s.qname

/-- The type that a symbol names. -/
def type? : Symbol → Option Ty
  | enum t => some t
  | struct t => some t
  | exception t => some t
  | _ => none

end Symbol

namespace Model

/-- A name as other models see it. -/
def qname (m : Model) (name : String) : String := qualify m.name name

/-- The namespace for a generator, or else the one for any generator. -/
def namespace? (m : Model) (generator : String) : Option String :=
  let declared (g : String) := (m.namespaces.find? (·.generator = g)).map (·.name)
  (declared generator).or (declared Namespace.anyGenerator)

/-- Two enumerations can give the same name to elements when a name holds a point; the later one
has it then. -/
def element? (m : Model) (name : String) : Option EnumElement :=
  (m.elements.reverse.find? (·.1 = name)).map (·.2)

/-- What the model itself declares under a name. -/
def declared? (m : Model) (name : String) : Option Symbol :=
  ((m.consts.find? (·.name = name)).map .const).or <|
  ((m.element? name).map .element).or <|
  ((m.enums.find? (·.name = name)).map .enum).or <|
  ((m.structs.find? (·.name = name)).map .struct).or <|
  ((m.exceptions.find? (·.name = name)).map .exception).or <|
  ((m.services.find? (·.name = name)).map .service)

/-- Notes that the model includes another. -/
def addInclude (m : Model) (name : String) : Model :=
  if m.includes.contains name then m else { m with includes := m.includes ++ [name] }

/-- Declares a namespace, at most one for each generator. -/
def addNamespace (m : Model) (ns : Namespace) : Except ModelError Model :=
  if m.namespaces.any (·.generator = ns.generator) then .error (.duplicateNamespace ns.generator)
  else .ok { m with namespaces := m.namespaces ++ [ns] }

end Model

end IdlGen
