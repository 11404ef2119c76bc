import IdlGen.Types.Basic

/-!
# Services

A service is a list of functions, possibly on top of those of another service. Names are distinct
within one service's own functions; a function may hide one of an ancestor.
-/

namespace IdlGen

structure Function where
  name : String
  result : Ty
  oneway : Bool
  args : FieldSet Ty
  throws : FieldSet Ty
  docs : Docs

/-- The owner of a function's arguments, as errors name it. -/
def Function.argsOwner (service name : String) : String := s!"{service}.{name}.<args>"

/-- The owner of a function's exceptions, as errors name it. -/
def Function.throwsOwner (service name : String) : String := s!"{service}.{name}.<throws>"

/-- What a service declares itself. -/
structure ServiceBody where
  model : Option String
  name : String
  functions : List Function := []
  docs : Docs

namespace ServiceBody

def qname (b : ServiceBody) : String := qualify b.model b.name

/-- Adds a function at the end. -/
def addFunction (b : ServiceBody) (f : Function) : Except ModelError ServiceBody :=
  if b.functions.any (·.name = f.name) then .error (.duplicateFunction f.name b.qname)
  else .ok { b with functions := b.functions ++ [f] }

@[grind →] theorem functions_addFunction {b b' : ServiceBody} {f : Function}
    (added : b.addFunction f = .ok b') : b'.functions = b.functions ++ [f] := by
  unfold addFunction at added
  split at added <;> cases added
  rfl

@[grind →] theorem name_addFunction {b b' : ServiceBody} {f : Function}
    (added : b.addFunction f = .ok b') : b'.name = b.name := by
  unfold addFunction at added
  split at added <;> cases added
  rfl

def function? (b : ServiceBody) (name : String) : Option Function :=
  b.functions.find? (·.name = name)

end ServiceBody

/-- A service, alone or on top of a parent. -/
inductive Service where
  | root (body : ServiceBody)
  | derived (body : ServiceBody) (parent : Service)

namespace Service

def make (body : ServiceBody) : Option Service → Service
  | none => root body
  | some parent => derived body parent

def body : Service → ServiceBody
  | root b => b
  | derived b _ => b

def parent? : Service → Option Service
  | root _ => none
  | derived _ p => some p

def name (s : Service) : String := s.body.name

def qname (s : Service) : String := s.body.qname

/-- All functions, those of the oldest ancestor first. -/
def functions : Service → List Function
  | root b => b.functions
  | derived b p => p.functions ++ b.functions

/-- The function of a name in the nearest service that declares one. -/
def function? (name : String) : Service → Option Function
  | root b => b.function? name
  | derived b p => (b.function? name).or (p.function? name)

end Service

end IdlGen
