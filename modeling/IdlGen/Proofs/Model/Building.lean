import IdlGen.Model.Lookup
import IdlGen.Proofs.Model.Growth

/-!
# Models under construction

While a model is built, its name is pending and it is sound at every step: what it declares and uses
is registered. Each kind of declaration keeps that, provided that the types it is written with are
registered.
-/

namespace IdlGen

@[simp, grind =] theorem Service.body_make {body : ServiceBody} {parent : Option Service} :
    (Service.make body parent).body = body := by
  cases parent <;> rfl

namespace Model

variable {m m' : Model} {s s' : ModelSet} {t : Ty}

/-- The model is being built in a well-formed set. -/
structure Building (m : Model) (s : ModelSet) : Prop where
  wf : s.WellFormed
  pending : ∀ n, m.name = some n → s.isPending n = true
  sound : m.Sound s

/-- A type that the model itself declares. -/
def Own (m : Model) (t : Ty) : Prop := t.modelName? = m.name

namespace Building

theorem known (building : m.Building s) (own : m.Own t) (n : String)
    (declares : t.modelName? = some n) : s.Knows n :=
  .inr (building.pending n (own ▸ declares))

theorem mono {D : Ty → Prop} (building : m.Building s) (progress : s.Progress D s') :
    m.Building s' where
  wf := progress.wellFormed
  pending n name := progress.isPending (building.pending n name)
  sound := building.sound.mono progress.holds

/-- A declaration that adds no type to the registry. -/
theorem extend (building : m.Building s) (name : m'.name = m.name)
    (named : m'.named = m.named) (uses : ∀ t ∈ m'.uses, t ∈ m.uses ∨ (t ≠ .void → s.Holds t)) :
    m'.Building s where
  wf := building.wf
  pending n h := building.pending n (name ▸ h)
  sound := {
    declared := by
      rw [named, name]
      exact building.sound.declared
    uses := by
      intro t member visible
      rcases uses t member with old | new
      · exact building.sound.uses t old visible
      · exact new visible }

/-- A declaration that adds the type `t` to the registry. -/
theorem declare (building : m.Building s)
    (registered : s.takeStamp.2.register t.qname t = .ok s')
    (stamp : t.stamp? = some s.stamps.next) (isNamed : t.isNamed = true) (own : m.Own t)
    (identifier : Shape.isIdentifier t.name.toList = true) (name : m'.name = m.name)
    (named : ∀ u ∈ m'.named, u ∈ m.named ∨ u = t)
    (uses : ∀ u ∈ m'.uses, u ∈ m.uses ∨ s.Holds u) :
    s.Progress m.Own s' ∧ m'.Building s' ∧ m'.name = m.name := by
  have wf := building.wf
  rcases ModelSet.register_cases stamp registered with ⟨free, rfl⟩ | ⟨known, found, stamped⟩
  · have wf' : (s.add t).WellFormed := by
      refine wf.add free stamp ?_ (fun _ => identifier) (building.known own)
      simp [Ty.elements_eq_nil_of_isNamed isNamed]
    have progress : s.Progress m.Own (s.add t) :=
      ⟨[], .add free stamp fun _ => own, wf', by simp⟩
    have grown := building.mono progress
    refine ⟨progress, ⟨wf', fun n h => grown.pending n (name ▸ h), ?_, ?_⟩, name⟩
    · intro u member
      rw [name]
      rcases named u member with old | rfl
      · exact grown.sound.declared u old
      · exact ⟨(ModelSet.holds_add_iff free).mpr (.inr rfl), isNamed, own⟩
    · intro u member visible
      rcases uses u member with old | held
      · exact grown.sound.uses u old visible
      · exact progress.holds held
  · exact absurd stamped (wf.stamp?_ne_next (wf.holds found))

end Building

@[simp] theorem mem_uses : t ∈ m.uses ↔
    (∃ c ∈ m.consts, c.type = t) ∨ (∃ u ∈ m.structs ++ m.exceptions, t ∈ u.fieldTypes) ∨
      ∃ v ∈ m.services, ∃ f ∈ v.body.functions, t ∈ f.types := by
  simp only [uses, List.mem_append, List.mem_map, List.mem_flatMap, or_assoc]

theorem addInclude_building {name : String} (building : m.Building s) :
    (m.addInclude name).Building s ∧ (m.addInclude name).name = m.name := by
  unfold addInclude
  split
  · exact ⟨building, rfl⟩
  · exact ⟨building.extend rfl rfl fun _ member => .inl member, rfl⟩

theorem addNamespace_building {ns : Namespace} (building : m.Building s)
    (h : m.addNamespace ns = .ok m') : m'.Building s ∧ m'.name = m.name := by
  unfold addNamespace at h
  split at h
  · cases h
  · cases h
    exact ⟨building.extend rfl rfl fun _ member => .inl member, rfl⟩

theorem addConst_building {c : Constant} (building : m.Building s) (held : s.Holds c.type)
    (h : m.addConst s c = .ok m') : m'.Building s ∧ m'.name = m.name := by
  obtain ⟨_, _, h⟩ := bind_eq_ok h
  cases h
  refine ⟨building.extend rfl rfl fun t member => ?_, rfl⟩
  rcases mem_uses.mp member with ⟨c', inConsts, rfl⟩ | others
  · rcases List.mem_append.mp inConsts with old | new
    · exact .inl (mem_uses.mpr (.inl ⟨c', old, rfl⟩))
    · exact .inr fun _ => List.mem_singleton.mp new ▸ held
  · exact .inl (mem_uses.mpr (.inr others))

theorem addService_building {service : Service} (building : m.Building s)
    (held : ∀ f ∈ service.body.functions, ∀ t ∈ f.types, t ≠ .void → s.Holds t)
    (h : m.addService s service = .ok m') : m'.Building s ∧ m'.name = m.name := by
  obtain ⟨_, _, h⟩ := bind_eq_ok h
  cases h
  refine ⟨building.extend rfl rfl fun t member => ?_, rfl⟩
  rcases mem_uses.mp member with consts | records | ⟨v, inServices, f, inBody, used⟩
  · exact .inl (mem_uses.mpr (.inl consts))
  · exact .inl (mem_uses.mpr (.inr (.inl records)))
  · rcases List.mem_append.mp inServices with old | new
    · exact .inl (mem_uses.mpr (.inr (.inr ⟨v, old, f, inBody, used⟩)))
    · cases List.mem_singleton.mp new
      exact .inr (held f inBody t used)

theorem addEnum_building {name : String} {body : Enumeration} (building : m.Building s)
    (identifier : Shape.isIdentifier name.toList = true)
    (h : m.addEnum s name body = .ok (t, m', s')) :
    s.Progress m.Own s' ∧ m'.Building s' ∧ m'.name = m.name := by
  obtain ⟨_, _, h⟩ := bind_eq_ok h
  obtain ⟨s'', registered, h⟩ := bind_eq_ok h
  cases h
  refine building.declare registered rfl rfl rfl identifier rfl ?_ fun _ member => .inl member
  intro u member
  simp only [named, List.mem_append, List.mem_singleton] at member ⊢
  grind

theorem addRecord_building {isException : Bool} {name : String} {body : Record Ty}
    (building : m.Building s) (identifier : Shape.isIdentifier name.toList = true)
    (held : ∀ u ∈ body.fields.types, s.Holds u)
    (h : m.addRecord s isException name body = .ok (t, m', s')) :
    s.Progress m.Own s' ∧ m'.Building s' ∧ m'.name = m.name := by
  obtain ⟨_, _, h⟩ := bind_eq_ok h
  obtain ⟨s'', registered, h⟩ := bind_eq_ok h
  cases h
  refine building.declare registered rfl rfl rfl identifier ?_ ?_ ?_
  · cases isException <;> rfl
  · intro u member
    cases isException <;> simp [named] at member ⊢ <;> grind
  · intro u member
    -- Only the records changed; a field of the new one is a field of its body.
    have inRecords : u ∈ m.uses ∨ u ∈ body.fields.types := by
      rcases mem_uses.mp member with consts | ⟨v, inRecords, inFields⟩ | services
      · exact .inl (mem_uses.mpr (.inl (by cases isException <;> exact consts)))
      · have old : v ∈ m.structs ++ m.exceptions ∨
            v = .record s.stamps.next isException m.name name body := by
          cases isException <;> simp at inRecords ⊢ <;> grind
        rcases old with old | rfl
        · exact .inl (mem_uses.mpr (.inr (.inl ⟨v, old, inFields⟩)))
        · exact .inr inFields
      · exact .inl (mem_uses.mpr (.inr (.inr (by cases isException <;> exact services))))
    exact inRecords.imp_right (held u)

end Model

end IdlGen
