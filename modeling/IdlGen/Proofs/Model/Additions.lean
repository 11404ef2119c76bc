import IdlGen.Model.Lookup
import IdlGen.Proofs.Model.Valid
import IdlGen.Proofs.Types.Places

/-!
# Adding declarations

The four functions that add a declaration to a model do the same three things: they check the name,
register the type if there is one, and put the declaration into its table. `Declaration.add_eq` says
so once for all of them.

A declaration can also be seen as a call that changes a model and a set in place, step by step. Such
a call could fail half way through, so that it then changes nothing is a fact about the order of its
steps.
-/

namespace IdlGen

namespace EnumBuilder

/-- The builder got its elements one by one, with names from `names`. -/
inductive Reached (names : String → Prop) : EnumBuilder → Prop
  | new (id : Nat) (qname : String) (docs : Docs) : Reached names (.new id qname docs)
  | addWithId {b b' : EnumBuilder} {name : String} {id : Int} (before : Reached names b)
      (allowed : names name) (added : b.addWithId name id = .ok b') : Reached names b'

variable {names : String → Prop} {b b' : EnumBuilder} {name : String}

@[grind →] theorem addWithId_elements {id : Int} (added : b.addWithId name id = .ok b') :
    ¬ (b.elements.any (·.name = name)) = true ∧
      b'.elements = b.elements ++ [⟨b.id, b.qname, name, id⟩] := by
  unfold EnumBuilder.addWithId at added
  split at added
  · cases added
  · rename_i fresh
    split at added <;> cases added
    exact ⟨fresh, rfl⟩

theorem Reached.add (before : b.Reached names) (allowed : names name)
    (added : b.add name = .ok b') : b'.Reached names := by
  unfold EnumBuilder.add at added
  split at added
  · exact .addWithId before allowed added
  · cases added

theorem Reached.mono {names' : String → Prop} (reached : b.Reached names)
    (imp : ∀ n, names n → names' n) : b.Reached names' := by
  induction reached with
  | new id qname docs => exact .new id qname docs
  | addWithId _ allowed added ih => exact .addWithId ih (imp _ allowed) added

theorem Reached.elements (reached : b.Reached names) :
    (b.elements.map (·.name)).Nodup ∧ ∀ e ∈ b.elements, names e.name := by
  induction reached with
  | new => exact ⟨.nil, by simp [EnumBuilder.new]⟩
  | addWithId _ allowed added ih =>
      obtain ⟨fresh, elements⟩ := addWithId_elements added
      rw [elements]
      exact ⟨nodup_map_concat ih.1 fresh, forall_mem_concat ih.2 allowed⟩

end EnumBuilder

/-- A declaration as it is given to a model. -/
inductive Declaration where
  | const (constant : Constant)
  | enum (name : String) (body : Enumeration)
  | record (isException : Bool) (name : String) (body : Record Ty)
  | service (service : Service)

namespace Declaration

def name : Declaration → String
  | const c => c.name
  | enum name _ => name
  | record _ name _ => name
  | service v => v.name

/-- Gives the model with the declaration, and the set with its type if it is that of a type. -/
def add (s : ModelSet) (m : Model) : Declaration → Except ModelError (Model × ModelSet)
  | const c => return (← m.addConst s c, s)
  | enum name body => return (← m.addEnum s name body).2
  | record isException name body => return (← m.addRecord s isException name body).2
  | service v => return (← m.addService s v, s)

/-- The type that a declaration brings, where it takes this stamp and belongs to this model. -/
def type? (stamp : Nat) (model : Option String) : Declaration → Option Ty
  | const _ => none
  | enum name body => some (.enum stamp model name body)
  | record isException name body => some (.record stamp isException model name body)
  | service _ => none

/-- Registers the type of a declaration, if it has one. -/
def register (s : ModelSet) (model : Option String) (d : Declaration) :
    Except ModelError ModelSet :=
  match d.type? s.stamps.next model with
  | some t => s.takeStamp.2.register t.qname t
  | none => .ok s

/-- The model with the declaration at the end of its table. -/
def push (stamp : Nat) (m : Model) : Declaration → Model
  | const c => { m with consts := m.consts ++ [c] }
  | enum name body => { m with
      elements := m.elements ++ body.elements.map fun e => (name ++ "." ++ e.name, e)
      enums := m.enums ++ [.enum stamp m.name name body] }
  | record true name body =>
    { m with exceptions := m.exceptions ++ [.record stamp true m.name name body] }
  | record false name body =>
    { m with structs := m.structs ++ [.record stamp false m.name name body] }
  | service v => { m with services := m.services ++ [v] }

/-- To add a declaration is to check its name, to register its type and to put it into its table,
whatever its kind. -/
theorem add_eq (d : Declaration) (s : ModelSet) (m : Model) :
    d.add s m = (do
      m.checkNew s d.name
      let s' ← d.register s m.name
      .ok (d.push s.stamps.next m, s')) := by
  cases d with
  | const c =>
      rw [add, Model.addConst, bind_assoc]
      rfl
  | enum name body =>
      rw [add, Model.addEnum, bind_assoc]
      simp only [bind_assoc]
      rfl
  | record isException name body =>
      rw [add, Model.addRecord, bind_assoc]
      simp only [bind_assoc]
      cases isException <;> rfl
  | service v =>
      rw [add, Model.addService, bind_assoc]
      rfl

variable {d : Declaration} {m m' : Model} {s s' : ModelSet} {t u : Ty}
variable {stamp : Nat} {model : Option String}

theorem add_eq_ok (h : d.add s m = .ok (m', s')) :
    m.checkNew s d.name = .ok () ∧ d.register s m.name = .ok s' ∧ m' = d.push s.stamps.next m := by
  rw [add_eq] at h
  obtain ⟨_, checked, h⟩ := bind_eq_ok h
  obtain ⟨_, registered, h⟩ := bind_eq_ok h
  cases h
  exact ⟨checked, registered, rfl⟩

/-- The declared name is one of `names`. The elements of an enumeration were added to it one by
one, with names from `elements`. -/
def Named (names elements : String → Prop) (d : Declaration) : Prop :=
  names d.name ∧ ∀ name body, d = enum name body →
    ∃ b : EnumBuilder, b.Reached elements ∧ b.build = body

theorem type?_eq_some (h : d.type? stamp model = some t) :
    t.stamp? = some stamp ∧ t.isNamed = true ∧ t.modelName? = model ∧ t.name = d.name := by
  cases d with
  | const | service => cases h
  | enum | record =>
      cases h
      exact ⟨rfl, rfl, rfl, rfl⟩

/-- A declaration registers its own type, under a name that was free, or none. -/
theorem register_cases (wf : s.WellFormed) (h : d.register s model = .ok s') :
    d.type? s.stamps.next model = none ∧ s' = s ∨
      ∃ t, d.type? s.stamps.next model = some t ∧ s.type? t.qname = none ∧ s' = s.add t := by
  unfold register at h
  split at h
  · rename_i t type
    refine .inr ⟨t, type, ?_⟩
    rcases ModelSet.register_cases (type?_eq_some type).1 h with added | ⟨known, found, stamped⟩
    · exact added
    · exact absurd stamped (wf.stamp?_ne_next (wf.holds found))
  · rename_i type
    cases h
    exact .inl ⟨type, rfl⟩

/-- A declaration adds its own type to those of the model. -/
@[simp, grind =] theorem mem_named_push :
    t ∈ (d.push stamp m).named ↔ t ∈ m.named ∨ d.type? stamp m.name = some t := by
  cases d with
  | const | service => simp [push, type?, Model.named]
  | enum name body =>
      simp only [push, type?, Model.named]
      grind
  | record isException name body =>
      cases isException <;> simp only [push, type?, Model.named] <;> grind

/-- A declaration of a type is refused if its name stands for another type. -/
theorem add_of_taken (wf : s.WellFormed) (checked : m.checkNew s d.name = .ok ())
    (type : d.type? s.stamps.next m.name = some u) (taken : s.type? u.qname = some t) :
    d.add s m = .error (.typeAlreadyRegistered u.qname) := by
  have other : t.same u = false := by
    refine Bool.eq_false_iff.mpr fun same => ?_
    have stamp := (type?_eq_some type).1
    rcases Ty.same_iff.mp same with ⟨p, _, rfl⟩ | ⟨k, known, next⟩
    · cases stamp
    · cases stamp.symm.trans next
      exact wf.stamp?_ne_next (wf.holds taken) known
  have refused : d.register s m.name = .error (.typeAlreadyRegistered u.qname) := by
    simp only [register, type, ModelSet.register, ModelSet.takeStamp_type?, taken, other]
    rfl
  rw [add_eq, checked, refused]
  rfl

end Declaration

/-- A model that is being built, and the set that its types are registered in. -/
structure Draft where
  model : Model
  set : ModelSet

/-- A call that changes a draft in place. -/
abbrev Edit := InPlace Draft

namespace Edit

open InPlace

/-- Refuses a name that has a meaning. -/
def checkNew (name : String) : Edit Unit := do
  let draft ← get
  draft.model.checkNew draft.set name

/-- Makes a type of the model and registers it. -/
def register (make : Nat → Option String → Ty) : Edit Ty := do
  let draft ← get
  let t := make draft.set.stamps.next draft.model.name
  -- A stamp is used up only by a type that gets registered.
  let s ← draft.set.takeStamp.2.register t.qname t
  set { draft with set := s }
  return t

/-- Puts something into a table of the model. -/
def insert (change : Model → Model) : Edit Unit :=
  modify fun draft => { draft with model := change draft.model }

variable {m : Model} {s : ModelSet}

@[simp] theorem exec_checkNew (name : String) :
    (checkNew name).exec ⟨m, s⟩ = (m.checkNew s name, ⟨m, s⟩) := rfl

theorem exec_register_ok {make : Nat → Option String → Ty} {s' : ModelSet}
    (h : s.takeStamp.2.register (make s.stamps.next m.name).qname (make s.stamps.next m.name) =
      .ok s') :
    (register make).exec ⟨m, s⟩ = (.ok (make s.stamps.next m.name), ⟨m, s'⟩) := by
  rw [register, exec_get_bind]
  simp only [h]
  rfl

theorem exec_register_error {make : Nat → Option String → Ty} {e : ModelError}
    (h : s.takeStamp.2.register (make s.stamps.next m.name).qname (make s.stamps.next m.name) =
      .error e) :
    (register make).exec ⟨m, s⟩ = (.error e, ⟨m, s⟩) := by
  rw [register, exec_get_bind]
  simp only [h]
  rfl

@[simp] theorem exec_insert (change : Model → Model) :
    (insert change).exec ⟨m, s⟩ = (.ok (), ⟨change m, s⟩) := rfl

end Edit

namespace Declaration

open Edit InPlace

/-- The call that adds a declaration. The elements of an enumeration are put in one by one. -/
def perform : Declaration → Edit Unit
  | const c => do
    checkNew c.name
    insert fun m => { m with consts := m.consts ++ [c] }
  | enum name body => do
    checkNew name
    let t ← Edit.register fun stamp model => .enum stamp model name body
    forM body.elements fun e =>
      insert fun m => { m with elements := m.elements ++ [(name ++ "." ++ e.name, e)] }
    insert fun m => { m with enums := m.enums ++ [t] }
  | record isException name body => do
    checkNew name
    let t ← Edit.register fun stamp model => .record stamp isException model name body
    insert fun m =>
      if isException then { m with exceptions := m.exceptions ++ [t] }
      else { m with structs := m.structs ++ [t] }
  | service v => do
    checkNew v.name
    insert fun m => { m with services := m.services ++ [v] }

variable {d : Declaration} {m m' : Model} {s s' : ModelSet} {e : ModelError}

/-- Elements that are put in one by one are all at the end of their table. -/
theorem exec_insert_elements (name : String) (elements : List EnumElement) :
    InPlace.exec (forM elements fun e =>
      insert fun m => { m with elements := m.elements ++ [(name ++ "." ++ e.name, e)] })
        ⟨m, s⟩ =
      (.ok (), ⟨{ m with
        elements := m.elements ++ elements.map fun e => (name ++ "." ++ e.name, e) }, s⟩) := by
  induction elements generalizing m with
  | nil =>
      rw [List.map_nil, List.append_nil]
      rfl
  | cons e elements ih =>
      rw [List.forM_cons, exec_bind_ok (exec_insert _), ih]
      simp

/-- What a call does that succeeds. -/
theorem perform_of_ok (h : d.add s m = .ok (m', s')) :
    d.perform.exec ⟨m, s⟩ = (.ok (), ⟨m', s'⟩) := by
  obtain ⟨checked, registered, rfl⟩ := add_eq_ok h
  have new : (checkNew d.name).exec ⟨m, s⟩ = (.ok (), ⟨m, s⟩) := by rw [exec_checkNew, checked]
  cases d with
  | const c | service v =>
      cases registered
      exact exec_bind_ok new
  | enum name body =>
      have made : (Edit.register fun stamp model => .enum stamp model name body).exec ⟨m, s⟩ = _ :=
        exec_register_ok registered
      refine (exec_bind_ok new).trans ((exec_bind_ok made).trans ?_)
      exact exec_bind_ok (exec_insert_elements name body.elements)
  | record isException name body =>
      have made : (Edit.register fun stamp model =>
          .record stamp isException model name body).exec ⟨m, s⟩ = _ :=
        exec_register_ok registered
      refine (exec_bind_ok new).trans ((exec_bind_ok made).trans ?_)
      cases isException <;> rfl

/-- A call that fails does nothing: only its check and its registration can fail, and nothing is
put into a table before them. -/
theorem perform_of_error (h : d.add s m = .error e) :
    d.perform.exec ⟨m, s⟩ = (.error e, ⟨m, s⟩) := by
  rw [add_eq] at h
  cases checked : m.checkNew s d.name with
  | error e' =>
      rw [checked] at h
      cases h
      have refused : (checkNew d.name).exec ⟨m, s⟩ = (.error e, ⟨m, s⟩) := by
        rw [exec_checkNew, checked]
      cases d <;> exact exec_bind_error refused
  | ok _ =>
      have new : (checkNew d.name).exec ⟨m, s⟩ = (.ok (), ⟨m, s⟩) := by rw [exec_checkNew, checked]
      rw [checked] at h
      cases registered : d.register s m.name with
      | ok s' =>
          rw [registered] at h
          cases h
      | error e' =>
          rw [registered] at h
          cases h
          cases d with
          | const c | service v => cases registered
          | enum name body | record isException name body =>
              exact (exec_bind_ok new).trans (exec_bind_error (exec_register_error registered))

end Declaration

namespace Model

/-- The model was built by calls, each for an allowed declaration and with any set, some of which
may have failed. -/
inductive BuiltBy (allowed : Declaration → Prop) : Model → Prop
  | start (name : Option String) : BuiltBy allowed { name }
  | addInclude {m : Model} (name : String) (built : m.BuiltBy allowed) :
      (m.addInclude name).BuiltBy allowed
  | addNamespace {m m' : Model} {ns : Namespace} (built : m.BuiltBy allowed)
      (added : m.addNamespace ns = .ok m') : m'.BuiltBy allowed
  | call {m : Model} (built : m.BuiltBy allowed) (s : ModelSet) (d : Declaration) (ok : allowed d) :
      (d.perform.exec ⟨m, s⟩).2.model.BuiltBy allowed

variable {allowed allowed' : Declaration → Prop} {m m' : Model}

theorem BuiltBy.add {d : Declaration} {s s' : ModelSet} (built : m.BuiltBy allowed) (ok : allowed d)
    (added : d.add s m = .ok (m', s')) : m'.BuiltBy allowed := by
  have called := built.call s d ok
  rwa [Declaration.perform_of_ok added] at called

theorem BuiltBy.mono (built : m.BuiltBy allowed) (imp : ∀ d, allowed d → allowed' d) :
    m.BuiltBy allowed' := by
  induction built with
  | start name => exact .start name
  | addInclude name _ ih => exact ih.addInclude name
  | addNamespace _ added ih => exact ih.addNamespace added
  | call _ s d ok ih => exact ih.call s d (imp d ok)

/-- What holds of a model without declarations and is kept by every addition holds of every model
that calls build. -/
theorem BuiltBy.rec_add {P : Model → Prop} (built : m.BuiltBy allowed)
    (start : ∀ name, P { name })
    (frame : ∀ {m : Model} (includes : List String) (namespaces : List Namespace), P m →
      P { m with includes, namespaces })
    (add : ∀ {m : Model} (s : ModelSet) (d : Declaration), allowed d → P m →
      m.checkNew s d.name = .ok () → P (d.push s.stamps.next m)) : P m := by
  induction built with
  | start name => exact start name
  | @addInclude m name _ ih =>
      unfold Model.addInclude
      split
      · exact ih
      · exact frame _ m.namespaces ih
  | @addNamespace m _ ns _ added ih =>
      unfold Model.addNamespace at added
      split at added <;> cases added
      exact frame m.includes _ ih
  | @call m _ s d ok ih =>
      cases added : d.add s m with
      | error e => rwa [Declaration.perform_of_error added]
      | ok out =>
          obtain ⟨checked, _, pushed⟩ := Declaration.add_eq_ok added
          rw [Declaration.perform_of_ok added]
          exact pushed ▸ add s d ok ih checked

end Model

end IdlGen
