import IdlGen.Proofs.Model.Registry
import IdlGen.Types.Check
import Mathlib.Data.List.Forall2

/-!
# When a check succeeds

For each kind of type, the literals that are accepted and the value that each of them gives. A
constant is looked through first and `null` is treated alike for all kinds, so the statements for
the kinds are about the other literals. Inside lists and maps, constants and `null` may still stand.
-/

namespace IdlGen

/-- A pass over a list succeeds if every step does. -/
theorem mapM_eq_ok_iff {ε α β : Type} {f : α → Except ε β} {as : List α} {bs : List β} :
    as.mapM f = .ok bs ↔ List.Forall₂ (fun a b => f a = .ok b) as bs := by
  induction as generalizing bs with
  | nil => cases bs <;> simp [pure, Except.pure]
  | cons a as ih =>
      rw [List.mapM_cons]
      constructor
      · intro h
        obtain ⟨b, first, h⟩ := bind_eq_ok h
        obtain ⟨bs, others, h⟩ := bind_eq_ok h
        cases h
        exact .cons first (ih.mp others)
      · rintro (_ | ⟨first, others⟩)
        rw [first, ih.mpr others]
        rfl

theorem exists_of_mem_forall₂ {α β : Type} {R : α → β → Prop} {as : List α} {bs : List β} {b : β}
    (related : List.Forall₂ R as bs) (member : b ∈ bs) : ∃ a ∈ as, R a b := by
  induction related with
  | nil => cases member
  | cons first _ ih =>
      rcases List.mem_cons.mp member with rfl | later
      · exact ⟨_, List.mem_cons_self, first⟩
      · obtain ⟨a, inside, found⟩ := ih later
        exact ⟨a, List.mem_cons_of_mem _ inside, found⟩

/-- What is made of a result is there if the result is. -/
theorem bind_ok_eq_ok_iff {ε α β : Type} {x : Except ε α} {g : α → β} {b : β} :
    (x >>= fun a => Except.ok (g a)) = .ok b ↔ ∃ a, x = .ok a ∧ b = g a := by
  constructor
  · intro h
    obtain ⟨a, result, h⟩ := bind_eq_ok h
    exact ⟨a, result, (Except.ok.inj h).symm⟩
  · rintro ⟨a, rfl, rfl⟩
    rfl

namespace Literal

/-- Whether the literal is judged by its own form: it is neither a constant nor `null`. -/
def isProper : Literal → Bool
  | .null => false
  | .const _ => false
  | _ => true

@[simp] theorem ofValues_eq_map (items : List Value) : ofValues items = items.map ofValue := by
  induction items with
  | nil => rfl
  | cons v rest ih => rw [ofValues, ih, List.map_cons]

@[simp] theorem ofEntries_eq_map (entries : List (Value × Value)) :
    ofEntries entries = entries.map fun e => (ofValue e.1, ofValue e.2) := by
  induction entries with
  | nil => rfl
  | cons e rest ih => rw [ofEntries, ih, List.map_cons]

end Literal

namespace Ty

variable {t e key value : Ty} {n : Nat} {model : Option String} {name : String}
variable {lit : Literal} {v : Value}

/-- A constant of the type itself is taken as it is, any other is checked by its value. -/
theorem check_const (t : Ty) (c : Constant) :
    t.check (.const c) =
      if c.type.same t then .ok c.value else t.check (Literal.ofValue c.value) := by
  by_cases same : c.type.same t = true
  · unfold check
    simp [resolve, same]
  · have resolved : t.resolve (.const c) = t.resolve (Literal.ofValue c.value) := by
      have direct : t.resolve (Literal.ofValue c.value) = .inr (Literal.ofValue c.value) := by
        cases c.value <;> rfl
      rw [direct]
      simp [resolve, same]
    unfold check
    simp only [resolved, same, Bool.false_eq_true, ↓reduceIte]

/-- Whether `null` is a value of the type. It is none of truth values, numbers and enumerations. -/
def nullable (t : Ty) : Bool := t.category ∉ [.boolean, .integer, .floatingPoint, .enum]

@[simp] theorem check_null (t : Ty) : t.check .null =
    if t.isScalar || t.isEnum then .error (.nullNotPermitted t.name) else .ok .null := by
  cases t <;> rfl

theorem check_null_iff : t.check .null = .ok v ↔ v = .null ∧ t.nullable = true := by
  have refused_iff : (t.isScalar || t.isEnum) = !t.nullable := by
    unfold isScalar isNumeric isEnum nullable
    cases t.category <;> rfl
  rw [check_null, refused_iff]
  cases t.nullable <;> simp [eq_comm]

@[simp] theorem check_prim {p : Primitive} (proper : lit.isProper = true) :
    (prim p).check lit = p.check lit := by
  cases lit with
  | null | const => cases proper
  | _ => rfl

theorem check_list_iff (proper : lit.isProper = true) :
    (list n e).check lit = .ok v ↔
      ∃ items values, lit = .list items ∧ v = .list values ∧
        List.Forall₂ (fun item value => e.check item = .ok value) items values := by
  cases lit with
  | null | const => cases proper
  | list items =>
      have step : (list n e).check (.list items) =
          (items.mapM e.check >>= fun values => .ok (.list values)) := rfl
      rw [step, bind_ok_eq_ok_iff]
      simp [mapM_eq_ok_iff, and_comm]
  | _ => exact ⟨nofun, by rintro ⟨_, _, ⟨⟩, _⟩⟩

theorem check_set (items : List Literal) :
    (set n e).check (.list items) =
      (items.mapM e.check >>= fun values => .ok (.set (Value.distinct values))) := rfl

theorem check_set_iff (proper : lit.isProper = true) :
    (set n e).check lit = .ok v ↔
      ∃ items values, lit = .list items ∧ v = .set (Value.distinct values) ∧
        List.Forall₂ (fun item value => e.check item = .ok value) items values := by
  cases lit with
  | null | const => cases proper
  | list items =>
      rw [check_set, bind_ok_eq_ok_iff]
      simp [mapM_eq_ok_iff, and_comm]
  | _ => exact ⟨nofun, by rintro ⟨_, _, ⟨⟩, _⟩⟩

/-- Checks key and value of an entry, the key first. -/
def checkEntry (key value : Ty) (entry : Literal × Literal) :
    Except ModelError (Value × Value) := do
  let k ← key.check entry.1
  let v ← value.check entry.2
  .ok (k, v)

@[simp] theorem checkEntry_eq_ok_iff {entry : Literal × Literal} {pair : Value × Value} :
    checkEntry key value entry = .ok pair ↔
      key.check entry.1 = .ok pair.1 ∧ value.check entry.2 = .ok pair.2 := by
  constructor
  · intro h
    obtain ⟨k, first, h⟩ := bind_eq_ok h
    obtain ⟨v, second, h⟩ := bind_eq_ok h
    cases h
    exact ⟨first, second⟩
  · rintro ⟨first, second⟩
    rw [checkEntry, first, second]
    rfl

theorem check_map (entries : List (Literal × Literal)) :
    (map n key value).check (.map entries) =
      (entries.mapM (checkEntry key value) >>= fun pairs => .ok (.map (Value.collapse pairs))) :=
  rfl

theorem check_map_iff (proper : lit.isProper = true) :
    (map n key value).check lit = .ok v ↔
      ∃ entries pairs, lit = .map entries ∧ v = .map (Value.collapse pairs) ∧
        List.Forall₂ (fun entry pair =>
          key.check entry.1 = .ok pair.1 ∧ value.check entry.2 = .ok pair.2) entries pairs := by
  cases lit with
  | null | const => cases proper
  | map entries =>
      rw [check_map, bind_ok_eq_ok_iff]
      simp [mapM_eq_ok_iff, and_comm]
  | _ => exact ⟨nofun, by rintro ⟨_, _, ⟨⟩, _⟩⟩

theorem check_enum_iff {body : Enumeration} (proper : lit.isProper = true) :
    (enum n model name body).check lit = .ok v ↔
      ∃ element, lit = .enum element ∧ v = .enum element ∧ body.owns element = true := by
  cases lit with
  | null | const => cases proper
  | enum element =>
      have step : (enum n model name body).check (.enum element) =
          if body.owns element then .ok (.enum element)
          else .error (.illegalValue name (Literal.enum element).render) := rfl
      rw [step]
      split
      · rename_i owned
        refine ⟨fun h => ⟨element, rfl, (Except.ok.inj h).symm, owned⟩, ?_⟩
        rintro ⟨_, ⟨⟩, rfl, _⟩
        rfl
      · rename_i foreign
        refine ⟨nofun, ?_⟩
        rintro ⟨_, ⟨⟩, _, owned⟩
        exact absurd owned foreign
  | _ => exact ⟨nofun, by rintro ⟨_, ⟨⟩, _⟩⟩

/-- Records have no literals of their own. -/
theorem check_record_ne_ok {isException : Bool} {body : Record Ty} (proper : lit.isProper = true) :
    (record n isException model name body).check lit ≠ .ok v := by
  cases lit with
  | null | const => cases proper
  | _ => nofun

end Ty

end IdlGen
