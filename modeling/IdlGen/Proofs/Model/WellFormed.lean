import IdlGen.Proofs.Model.Registry
import IdlGen.Token.Shape

/-!
# Well-formed model sets

The invariant of loading. Its clauses only hold together: a type can be taken out of the registry
with the model that owns it because every type of a model is known by that model's name, because
containers are owned through their elements, and because no model is loaded while it is pending.

Stamps make identity visible. Two types that the registry holds are the same only if they are equal,
and a stamp that was not given out yet belongs to none of them.
-/

namespace IdlGen

/-- The types that a model declares. -/
def Model.named (m : Model) : List Ty := m.enums ++ m.structs ++ m.exceptions

namespace ModelSet

variable {s : ModelSet} {t u : Ty} {n : String} {m : Model}

structure WellFormed (s : ModelSet) : Prop where
  /-- No name is registered twice. -/
  nodup : (s.types.map Prod.fst).Nodup
  /-- A type is registered under its own name. -/
  keyed : ∀ {k t}, s.type? k = some t → t.qname = k
  primitive : ∀ p ∈ Primitive.nameable, s.Holds (.prim p)
  /-- Containers are made of registered types. -/
  elements : ∀ {t e}, s.Holds t → e ∈ t.elements → s.Holds e
  /-- Declared names are identifiers, so they hold no mark of a container's name. -/
  identifier : ∀ {t}, s.Holds t → t.isNamed = true → Shape.isIdentifier t.name.toList = true
  /-- The model of a registered type is loaded or being built. -/
  known : ∀ {t n}, s.Holds t → t.modelName? = some n → s.Knows n
  stamped : ∀ {t k}, s.Holds t → t.stamp? = some k → k < s.stamps.next
  distinct : ∀ {t u}, s.Holds t → s.Holds u → t.same u = true → t = u
  /-- What a loaded model declares is registered, and declared by this model. -/
  declared : ∀ {m t}, m ∈ s.models → t ∈ m.named →
    s.Holds t ∧ t.isNamed = true ∧ t.modelName? = m.name
  /-- No model is loaded while its name is pending. -/
  unloaded : ∀ {n}, s.isPending n = true → s.isLoaded n = false

namespace WellFormed

theorem holds (wf : s.WellFormed) {k : String} (h : s.type? k = some t) : s.Holds t := by
  have name := wf.keyed h
  subst name
  exact h

theorem parts (wf : s.WellFormed) (held : s.Holds t) : ∀ p ∈ t.parts, s.Holds p :=
  Ty.forall_parts (fun _ _ h member => wf.elements h member) held

/-- The owners of a registered type are known, however deep the part that they declare. -/
theorem known_of_ownedBy (wf : s.WellFormed) (held : s.Holds t) (owned : t.ownedBy n = true) :
    s.Knows n := by
  obtain ⟨p, member, declares⟩ := Ty.ownedBy_iff.mp owned
  exact wf.known (wf.parts held p member) declares

theorem takeStamp (wf : s.WellFormed) : s.takeStamp.2.WellFormed where
  nodup := wf.nodup
  keyed := wf.keyed
  primitive := wf.primitive
  elements := wf.elements
  identifier := wf.identifier
  known := wf.known
  stamped held stamp := Nat.lt_succ_of_lt (wf.stamped held stamp)
  distinct := wf.distinct
  declared := wf.declared
  unloaded := wf.unloaded

/-- The next stamp is on no registered type. -/
theorem stamp?_ne_next (wf : s.WellFormed) (held : s.Holds t) :
    t.stamp? ≠ some s.stamps.next :=
  fun stamp => Nat.lt_irrefl _ (wf.stamped held stamp)

theorem add (wf : s.WellFormed) (new : s.type? t.qname = none)
    (stamp : t.stamp? = some s.stamps.next) (elements : ∀ e ∈ t.elements, s.Holds e)
    (identifier : t.isNamed = true → Shape.isIdentifier t.name.toList = true)
    (known : ∀ n, t.modelName? = some n → s.Knows n) : (s.add t).WellFormed where
  nodup := by
    have names : (s.add t).types.map Prod.fst = s.types.map Prod.fst ++ [t.qname] := by
      simp [ModelSet.add]
    rw [names, List.nodup_append]
    refine ⟨wf.nodup, by simp, ?_⟩
    intro a oldName b newName same
    obtain ⟨entry, member, name⟩ := List.mem_map.mp oldName
    have free := bne_iff_ne.mp (List.lookup_eq_none_iff.mp new entry member)
    exact free (List.mem_singleton.mp newName ▸ same ▸ name.symm)
  keyed := by
    intro k u h
    rw [add_type? new] at h
    split at h
    · rename_i hk
      cases h
      exact hk.symm
    · exact wf.keyed h
  primitive p member := by simp [new, wf.primitive p member]
  elements := by
    intro u e held member
    refine (holds_add_iff new).mpr (.inl ?_)
    rcases (holds_add_iff new).mp held with old | rfl
    · exact wf.elements old member
    · exact elements e member
  identifier := by
    intro u held named
    rcases (holds_add_iff new).mp held with old | rfl
    · exact wf.identifier old named
    · exact identifier named
  known := by
    intro u n held declares
    rcases (holds_add_iff new).mp held with old | rfl
    · exact wf.known old declares
    · exact known n declares
  stamped := by
    intro u k held hk
    rcases (holds_add_iff new).mp held with old | rfl
    · exact Nat.lt_succ_of_lt (wf.stamped old hk)
    · rw [stamp] at hk
      cases hk
      exact Nat.lt_succ_self _
  distinct := by
    intro u v heldU heldV same
    rcases (holds_add_iff new).mp heldU with oldU | rfl <;>
      rcases (holds_add_iff new).mp heldV with oldV | rfl
    · exact wf.distinct oldU oldV same
    · obtain ⟨p, rfl, rfl⟩ | ⟨k, hu, hv⟩ := Ty.same_iff.mp same
      · rfl
      · exact absurd (hu.trans (hv.symm.trans stamp)) (wf.stamp?_ne_next oldU)
    · obtain ⟨p, rfl, rfl⟩ | ⟨k, hu, hv⟩ := Ty.same_iff.mp same
      · rfl
      · exact absurd (hv.trans (hu.symm.trans stamp)) (wf.stamp?_ne_next oldV)
    · rfl
  declared := by
    intro m u member inModel
    obtain ⟨held, rest⟩ := wf.declared member inModel
    exact ⟨(holds_add_iff new).mpr (.inl held), rest⟩
  unloaded := wf.unloaded

theorem reserve (wf : s.WellFormed) (unknown : ¬ s.Knows n) : (s.reserve n).WellFormed where
  nodup := wf.nodup
  keyed := wf.keyed
  primitive := wf.primitive
  elements := wf.elements
  identifier := wf.identifier
  known held declares := by simp [wf.known held declares]
  stamped := wf.stamped
  distinct := wf.distinct
  declared := wf.declared
  unloaded := by
    intro k pending
    rcases isPending_reserve_iff.mp pending with old | rfl
    · exact wf.unloaded old
    · exact Bool.eq_false_iff.mpr fun loaded => unknown (.inl loaded)

/-- An abandoned model is the only one that is no longer known. -/
theorem knows_abandon_iff (wf : s.WellFormed) (pending : s.isPending n = true) {k : String} :
    (s.abandon n).Knows k ↔ s.Knows k ∧ k ≠ n := by
  have unloaded : s.isLoaded n = false := wf.unloaded pending
  unfold Knows
  rw [isLoaded_abandon, isPending_abandon_iff]
  grind

/-- Abandoning a pending model also takes away every container over its types, and nothing that a
loaded model declares. -/
theorem abandon (wf : s.WellFormed) (pending : s.isPending n = true) :
    (s.abandon n).WellFormed where
  nodup := wf.nodup.sublist (List.filter_sublist.map _)
  keyed := by
    intro k t h
    have step : (s.abandon n).type? k = (s.type? k).filter fun u => !u.ownedBy n :=
      lookup_filter_of_nodup _ _ wf.nodup
    rw [step] at h
    exact wf.keyed (Option.filter_eq_some_iff.mp h).1
  primitive p member :=
    (holds_abandon_iff wf.nodup).mpr ⟨wf.primitive p member, by simp [Ty.ownedBy, Ty.modelName?]⟩
  elements := by
    intro t e held member
    obtain ⟨old, free⟩ := (holds_abandon_iff wf.nodup).mp held
    refine (holds_abandon_iff wf.nodup).mpr ⟨wf.elements old member, ?_⟩
    refine Bool.eq_false_iff.mpr fun owned => Bool.eq_false_iff.mp free ?_
    exact Ty.ownedBy_iff_elements.mpr (.inr ⟨e, member, owned⟩)
  identifier held := wf.identifier ((holds_abandon_iff wf.nodup).mp held).1
  known := by
    intro t k held declares
    obtain ⟨old, free⟩ := (holds_abandon_iff wf.nodup).mp held
    have other : k ≠ n := by
      rintro rfl
      exact Bool.eq_false_iff.mp free (Ty.ownedBy_of_modelName? declares)
    exact (wf.knows_abandon_iff pending).mpr ⟨wf.known old declares, other⟩
  stamped held := wf.stamped ((holds_abandon_iff wf.nodup).mp held).1
  distinct heldT heldU :=
    wf.distinct ((holds_abandon_iff wf.nodup).mp heldT).1
      ((holds_abandon_iff wf.nodup).mp heldU).1
  declared := by
    intro m t member inModel
    obtain ⟨held, named, name⟩ := wf.declared member inModel
    refine ⟨(holds_abandon_iff wf.nodup).mpr ⟨held, ?_⟩, named, name⟩
    refine Bool.eq_false_iff.mpr fun owned => ?_
    rcases Ty.ownedBy_iff_elements.mp owned with declares | ⟨e, inside, _⟩
    · -- The model would be loaded and pending at once.
      have loaded := isLoaded_iff.mpr ⟨m, member, name ▸ declares⟩
      exact Bool.eq_false_iff.mp (wf.unloaded pending) loaded
    · simp [Ty.elements_eq_nil_of_isNamed named] at inside
  unloaded waiting := wf.unloaded (isPending_abandon_iff.mp waiting).1

theorem finish (wf : s.WellFormed) (name : m.name = some n)
    (declared : ∀ t ∈ m.named, s.Holds t ∧ t.isNamed = true ∧ t.modelName? = m.name) :
    (s.finish m).WellFormed := by
  have holds_iff : ∀ {t}, (s.finish m).Holds t ↔ s.Holds t := holds_finish
  exact {
    nodup := by simpa using wf.nodup
    keyed := fun h => wf.keyed (by simpa using h)
    primitive := fun p member => holds_iff.mpr (wf.primitive p member)
    elements := fun held member => holds_iff.mpr (wf.elements (holds_iff.mp held) member)
    identifier := fun held => wf.identifier (holds_iff.mp held)
    known := fun held declares => (wf.known (holds_iff.mp held) declares).finish name
    stamped := fun held stamp => by simpa using wf.stamped (holds_iff.mp held) stamp
    distinct := fun heldT heldU => wf.distinct (holds_iff.mp heldT) (holds_iff.mp heldU)
    declared := by
      intro m' t member inModel
      rw [finish_named name] at member
      refine And.imp_left holds_iff.mpr ?_
      rcases List.mem_append.mp member with old | new
      · exact wf.declared old inModel
      · cases List.mem_singleton.mp new
        exact declared t inModel
    unloaded := by
      intro k waiting
      obtain ⟨old, other⟩ := (isPending_finish_iff name).mp waiting
      refine Bool.eq_false_iff.mpr fun loaded => ?_
      rcases (isLoaded_finish_iff name).mp loaded with before | same
      · exact Bool.eq_false_iff.mp (wf.unloaded old) before
      · exact other same }

/-- The set that only knows the primitive types. -/
@[simp] theorem empty : ModelSet.empty.WellFormed := by
  have held : ∀ {k t}, ModelSet.empty.type? k = some t →
      ∃ p ∈ Primitive.nameable, k = p.name ∧ t = .prim p := by
    intro k t h
    obtain ⟨front, back, split, _⟩ := List.lookup_eq_some_iff.mp h
    have member : (k, t) ∈ ModelSet.empty.types := by simp [split]
    obtain ⟨p, nameable, entry⟩ := List.mem_map.mp member
    cases entry
    exact ⟨p, nameable, rfl, rfl⟩
  exact {
    nodup := by decide
    keyed := by
      intro k t h
      obtain ⟨p, _, rfl, rfl⟩ := held h
      rfl
    primitive := by
      intro p nameable
      simp only [Primitive.nameable, List.mem_cons, List.not_mem_nil, or_false] at nameable
      rcases nameable with rfl | rfl | rfl | rfl | rfl | rfl | rfl | rfl <;> rfl
    elements := by
      intro t e h member
      obtain ⟨p, _, _, rfl⟩ := held h
      cases member
    identifier := by
      intro t h named
      obtain ⟨p, _, _, rfl⟩ := held h
      cases named
    known := by
      intro t n h declares
      obtain ⟨p, _, _, rfl⟩ := held h
      cases declares
    stamped := by
      intro t k h stamp
      obtain ⟨p, _, _, rfl⟩ := held h
      cases stamp
    distinct := by
      intro t u ht hu same
      obtain ⟨p, _, _, rfl⟩ := held ht
      obtain ⟨q, _, _, rfl⟩ := held hu
      simpa [Ty.same] using same
    declared := fun member => nomatch member
    unloaded := fun _ => rfl }

end WellFormed

end ModelSet

end IdlGen
