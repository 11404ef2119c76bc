import IdlGen.Proofs.Model.Names
import IdlGen.Proofs.Types.Check
import IdlGen.Proofs.Types.Container

/-!
# Conflicts

Most errors of a model tell of two things in one declaration, or of two declarations of one model.
Three of them tell of a conflict with something else: a model that exists already, an include that
leads back, and a name in the registry. No addition of a part of a declaration raises one of these.

The declaration of a type could find its name in the registry. It does not, as long as the registry
has no types of its model but those that the model declares: a name of the model in the registry is
that of one of its own types, since a name tells the model of a type, and a name that the model has
declared is refused before the registry is asked.
-/

namespace IdlGen

/-- The error tells of a conflict with another model or with the registry. -/
def ModelError.isConflict : ModelError → Bool
  | duplicateModel _ => true
  | circularInclude _ => true
  | typeAlreadyRegistered _ => true
  | _ => false

/-- If the computation fails, it is not because of a conflict. -/
def Peaceful {α : Type} (y : Except ModelError α) : Prop :=
  ∀ e, y = .error e → e.isConflict = false

namespace Peaceful

variable {α β : Type}

theorem ok (a : α) : Peaceful (.ok a) := fun _ failed => by cases failed

theorem error {e : ModelError} (harmless : e.isConflict = false) :
    Peaceful (.error e : Except ModelError α) :=
  fun _ failed => Except.error.inj failed ▸ harmless

theorem bind {y : Except ModelError α} {f : α → Except ModelError β} (first : Peaceful y)
    (second : ∀ a, y = .ok a → Peaceful (f a)) : Peaceful (y >>= f) := by
  cases y with
  | error e => exact error (first e rfl)
  | ok a => exact second a rfl

theorem map {y : Except ModelError α} (first : Peaceful y) (g : α → β) : Peaceful (y.map g) := by
  cases y with
  | error e => exact error (first e rfl)
  | ok a => exact ok (g a)

theorem mapM {f : α → Except ModelError β} (each : ∀ a, Peaceful (f a)) (as : List α) :
    Peaceful (as.mapM f) := by
  induction as with
  | nil => exact ok []
  | cons a as ih =>
      rw [List.mapM_cons]
      exact (each a).bind fun b _ => ih.bind fun bs _ => ok (b :: bs)

end Peaceful

theorem Primitive.check_peaceful (p : Primitive) (lit : Literal) : Peaceful (p.check lit) := by
  unfold check
  split
  all_goals first
    | exact .ok _
    | exact .error rfl
    | split <;> first
      | exact .ok _
      | exact .error rfl

namespace Ty

variable {t : Ty}

/-- Constants and `null` are refused for no other reasons than other literals. -/
theorem peaceful_of_proper (proper : ∀ lit : Literal, lit.isProper = true → Peaceful (t.check lit))
    (lit : Literal) : Peaceful (t.check lit) := by
  have direct : ∀ lit : Literal, (∀ c, lit ≠ .const c) → Peaceful (t.check lit) := by
    intro lit other
    cases lit with
    | null =>
        rw [check_null]
        split
        · exact .error rfl
        · exact .ok _
    | const c => exact absurd rfl (other c)
    | _ => exact proper _ rfl
  cases lit with
  | const c =>
      rw [check_const]
      split
      · exact .ok _
      · exact direct _ (by cases c.value <;> simp [Literal.ofValue])
  | _ => exact direct _ (by simp)

theorem check_peaceful (t : Ty) (lit : Literal) : Peaceful (t.check lit) := by
  induction t using parts.induct generalizing lit with
  | case1 n e ih =>
      refine peaceful_of_proper (fun lit proper => ?_) lit
      cases lit with
      | null | const => cases proper
      | list items => exact (Peaceful.mapM ih items).bind fun _ _ => .ok _
      | _ => exact .error rfl
  | case2 n e ih =>
      refine peaceful_of_proper (fun lit proper => ?_) lit
      cases lit with
      | null | const => cases proper
      | list items => exact (Peaceful.mapM ih items).bind fun _ _ => .ok _
      | _ => exact .error rfl
  | case3 n key value ihKey ihValue =>
      have entry : ∀ entry, Peaceful (checkEntry key value entry) := fun entry =>
        (ihKey entry.1).bind fun _ _ => (ihValue entry.2).bind fun _ _ => .ok _
      refine peaceful_of_proper (fun lit proper => ?_) lit
      cases lit with
      | null | const => cases proper
      | map entries => exact (Peaceful.mapM entry entries).bind fun _ _ => .ok _
      | _ => exact .error rfl
  | case4 t notList notSet notMap =>
      refine peaceful_of_proper (fun lit proper => ?_) lit
      cases t with
      | list n e => exact absurd rfl (notList n e)
      | set n e => exact absurd rfl (notSet n e)
      | map n k v => exact absurd rfl (notMap n k v)
      | prim p =>
          rw [check_prim proper]
          exact p.check_peaceful lit
      | enum n model name body =>
          cases lit with
          | null | const => cases proper
          | enum element =>
              have step : (enum n model name body).check (.enum element) =
                  if body.owns element then .ok (.enum element)
                  else .error (.illegalValue name (Literal.enum element).render) := rfl
              rw [step]
              split
              · exact .ok _
              · exact .error rfl
          | _ => exact .error rfl
      | record n isException model name body =>
          cases lit with
          | null | const => cases proper
          | _ => exact .error rfl

end Ty

theorem Constant.ofLiteral_peaceful (model : Option String) (name : String) (type : Ty)
    (lit : Literal) (docs : Docs) : Peaceful (Constant.ofLiteral model name type lit docs) :=
  (type.check_peaceful lit).bind fun _ _ => .ok _

theorem Field.ofLiteral_peaceful (id : Int) (name : String) (type : Ty) (required : Bool)
    (default : Option Literal) (notes : Annotations) (docs : Docs) :
    Peaceful (Field.ofLiteral id name type required default notes docs) := by
  cases default with
  | none => exact .ok _
  | some lit => exact ((type.check_peaceful lit).map some).bind fun _ _ => .ok _

theorem FieldSet.add_peaceful (s : FieldSet Ty) (f : Field Ty) : Peaceful (s.add f) := by
  unfold add
  split
  · exact .error rfl
  · split
    · exact .error rfl
    · exact .ok _

theorem EnumBuilder.addWithId_peaceful (b : EnumBuilder) (name : String) (id : Int) :
    Peaceful (b.addWithId name id) := by
  unfold addWithId
  split
  · exact .error rfl
  · split
    · exact .error rfl
    · exact .ok _

theorem EnumBuilder.add_peaceful (b : EnumBuilder) (name : String) : Peaceful (b.add name) := by
  unfold add
  split
  · exact b.addWithId_peaceful name b.nextId
  · exact .error rfl

theorem ServiceBody.addFunction_peaceful (b : ServiceBody) (f : Function) :
    Peaceful (b.addFunction f) := by
  unfold addFunction
  split
  · exact .error rfl
  · exact .ok _

namespace Model

theorem addNamespace_peaceful (m : Model) (ns : Namespace) : Peaceful (m.addNamespace ns) := by
  unfold addNamespace
  split
  · exact .error rfl
  · exact .ok _

theorem lookupService_peaceful (m : Model) (s : ModelSet) (name : String) :
    Peaceful (m.lookupService s name) := by
  unfold lookupService
  split
  · exact .ok _
  · exact .error rfl
  · exact .error rfl

theorem checkNew_peaceful (m : Model) (s : ModelSet) (name : String) :
    Peaceful (m.checkNew s name) := by
  unfold checkNew
  split
  · exact .error rfl
  · exact .ok _

theorem addConst_peaceful (m : Model) (s : ModelSet) (c : Constant) :
    Peaceful (m.addConst s c) :=
  (m.checkNew_peaceful s c.name).bind fun _ _ => .ok _

theorem addService_peaceful (m : Model) (s : ModelSet) (service : Service) :
    Peaceful (m.addService s service) :=
  (m.checkNew_peaceful s service.name).bind fun _ _ => .ok _

/-- The types of the model that are registered are those that it declares. -/
def Registers (m : Model) (s : ModelSet) : Prop :=
  ∀ n, m.name = some n → ∀ t, s.Holds t → t.modelName? = some n → t ∈ m.named

variable {m : Model} {s s' : ModelSet}

theorem declared?_ne_none {t : Ty} (member : t ∈ m.named) : m.declared? t.name ≠ none := by
  intro undeclared
  simp only [declared?, Option.or_eq_none_iff, Option.map_eq_none_iff, List.find?_eq_none,
    decide_eq_true_eq] at undeclared
  simp only [named, List.mem_append] at member
  obtain ⟨_, _, enums, structs, exceptions, _⟩ := undeclared
  rcases member with (isEnum | isStruct) | isException
  · exact enums t isEnum rfl
  · exact structs t isStruct rfl
  · exact exceptions t isException rfl

/-- A new name of the model is free in the registry. -/
theorem Registers.type?_eq_none (registers : m.Registers s) (wf : s.WellFormed) {n x : String}
    (name : m.name = some n) (identifier : Shape.isIdentifier x.toList = true)
    (new : m.checkNew s x = .ok ()) : s.type? (qualify (some n) x) = none := by
  by_contra taken
  obtain ⟨t, found⟩ := Option.ne_none_iff_exists'.mp taken
  have held := wf.holds found
  obtain ⟨owner, rfl⟩ := Ty.modelName?_of_qname (wf.identifier held) identifier (wf.keyed found)
  have free : PointFree t.name := Shape.point_not_mem_of_isIdentifier identifier
  apply declared?_ne_none (registers n name t held owner)
  rw [← lookup_of_pointFree free s]
  exact lookup_of_checkNew new

/-- Types of other models may come and go. -/
theorem Registers.progress (registers : m.Registers s)
    (pending : ∀ n, m.name = some n → s.isPending n = true)
    (made : s.Progress (fun _ => False) s') : m.Registers s' := by
  intro n name t held owner
  by_cases old : s.Holds t
  · exact registers n name t old owner
  · obtain ⟨_, advance, _⟩ := made
    have named := Ty.isNamed_of_modelName? owner
    obtain ⟨n', declares, _, new⟩ := (advance.named held old named).resolve_left id
    obtain rfl := Option.some.inj (declares.symm.trans owner)
    exact absurd (.inr (pending n' name)) new

end Model

/-- A declaration in a named model conflicts with nothing in the registry. -/
theorem Declaration.add_peaceful {d : Declaration} {m : Model} {s : ModelSet} {n : String}
    (name : m.name = some n) (wf : s.WellFormed) (registers : m.Registers s)
    (identifier : Shape.isIdentifier d.name.toList = true) : Peaceful (d.add s m) := by
  rw [add_eq]
  refine (m.checkNew_peaceful s d.name).bind fun _ new => ?_
  refine Peaceful.bind ?_ fun _ _ => .ok _
  unfold register
  split
  · rename_i t type
    obtain ⟨stamp, _, owner, named⟩ := type?_eq_some type
    have free : s.type? t.qname = none := by
      rw [t.qname_eq_qualify, owner, name, named]
      exact registers.type?_eq_none wf name identifier new
    rw [ModelSet.register, ModelSet.takeStamp_type?, free]
    exact .ok _
  · exact .ok _

end IdlGen
