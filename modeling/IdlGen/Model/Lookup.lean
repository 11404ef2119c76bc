import IdlGen.Model.ModelSet

/-!
# Names in a model

A name is looked up among the declarations of the model and then, if it has the form `model.rest`,
in that other model. New declarations are checked by the same lookup, so a name never gets a second
meaning.
-/

namespace IdlGen

/-- Cuts a name at its first point. -/
def splitAtPoint? : List Char → Option (List Char × List Char)
  | [] => none
  | c :: cs =>
    if c = '.' then some ([], cs)
    else (splitAtPoint? cs).map fun (front, rest) => (c :: front, rest)

theorem splitAtPoint?_length {cs front rest : List Char}
    (h : splitAtPoint? cs = some (front, rest)) : rest.length < cs.length := by
  induction cs generalizing front with
  | nil => simp [splitAtPoint?] at h
  | cons c cs ih =>
    unfold splitAtPoint? at h
    split at h
    · simp_all
    · obtain ⟨⟨f, r⟩, hs, he⟩ := Option.map_eq_some_iff.1 h
      cases he
      exact Nat.lt_succ_of_lt (ih hs)

namespace Model

/-- What a name, given by its characters, stands for in a model. -/
def lookupChars (s : ModelSet) (m : Model) (name : List Char) : Option Symbol :=
  match m.declared? (String.ofList name) with
  | some symbol => some symbol
  | none =>
    match _h : splitAtPoint? name with
    | none => none
    | some (front, rest) =>
      if m.name = some (String.ofList front) then lookupChars s m rest
      else
        match s.model? (String.ofList front) with
        | some other => lookupChars s other rest
        | none => none
termination_by name.length
decreasing_by all_goals exact splitAtPoint?_length _h

/-- What a name stands for in a model. -/
def lookup (s : ModelSet) (m : Model) (name : String) : Option Symbol :=
  m.lookupChars s name.toList

/-- The type of a name: a type of the model, or else the type so named anywhere. -/
def lookupType (s : ModelSet) (m : Model) (name : String) : Option Ty :=
  (s.type? (m.qname name)).or (s.type? name)

/-- The service of a name. -/
def lookupService (s : ModelSet) (m : Model) (name : String) : Except ModelError Service :=
  match m.lookup s name with
  | some (.service service) => .ok service
  | some other => .error (.notAService name other.render)
  | none => .error (.unknownService name)

/-- Refuses a name that has a meaning. -/
def checkNew (s : ModelSet) (m : Model) (name : String) : Except ModelError Unit :=
  match m.lookup s name with
  | some known => .error (.nameAlreadyDefined name known.render)
  | none => .ok ()

def addConst (s : ModelSet) (m : Model) (c : Constant) : Except ModelError Model := do
  m.checkNew s c.name
  .ok { m with consts := m.consts ++ [c] }

/-- Declares an enumeration and registers its type. -/
def addEnum (s : ModelSet) (m : Model) (name : String) (body : Enumeration) :
    Except ModelError (Ty × Model × ModelSet) := do
  m.checkNew s name
  let (stamp, s) := s.takeStamp
  let t := Ty.enum stamp m.name name body
  let s ← s.register t.qname t
  let named := body.elements.map fun e => (name ++ "." ++ e.name, e)
  .ok (t, { m with elements := m.elements ++ named, enums := m.enums ++ [t] }, s)

/-- Declares a struct, union or exception and registers its type. -/
def addRecord (s : ModelSet) (m : Model) (isException : Bool) (name : String)
    (body : Record Ty) : Except ModelError (Ty × Model × ModelSet) := do
  m.checkNew s name
  let (stamp, s) := s.takeStamp
  let t := Ty.record stamp isException m.name name body
  let s ← s.register t.qname t
  let m := if isException then { m with exceptions := m.exceptions ++ [t] }
    else { m with structs := m.structs ++ [t] }
  .ok (t, m, s)

def addService (s : ModelSet) (m : Model) (service : Service) : Except ModelError Model := do
  m.checkNew s service.name
  .ok { m with services := m.services ++ [service] }

end Model

end IdlGen
