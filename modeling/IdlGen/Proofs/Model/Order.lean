import IdlGen.Model.Lookup
import IdlGen.Proofs.Model.Containers
import Mathlib.Data.List.Nodup

/-!
# The order of models

The models of a set stand in the order in which they were finished. `Ordered` says that each of them
has a name of its own and comes after the models that it includes. Finishing a model keeps this if
its includes are loaded by then; requests and declarations leave the models alone.
-/

namespace IdlGen

/-- Where keys are distinct, the first item with a key is the only one. -/
theorem find?_eq_some_iff_of_nodup {α β : Type} [DecidableEq β] {key : α → β} {xs : List α}
    (distinct : (xs.map key).Nodup) {k : β} {x : α} :
    xs.find? (key · = k) = some x ↔ x ∈ xs ∧ key x = k := by
  constructor
  · intro found
    exact ⟨List.mem_of_find?_eq_some found, by simpa using List.find?_some found⟩
  · rintro ⟨member, keyed⟩
    have there : (xs.find? (key · = k)).isSome :=
      List.find?_isSome.mpr ⟨x, member, by simpa using keyed⟩
    obtain ⟨y, found⟩ := Option.isSome_iff_exists.mp there
    have keyed' : key y = k := by simpa using List.find?_some found
    rw [found, List.inj_on_of_nodup_map distinct (List.mem_of_find?_eq_some found) member
      (keyed'.trans keyed.symm)]

namespace ModelSet

variable {s s' s'' : ModelSet} {n : String} {m : Model}

/-- No model was started, finished or abandoned between the two sets. -/
structure SameModels (s s' : ModelSet) : Prop where
  models : s'.models = s.models
  pending : s'.pending = s.pending

namespace SameModels

attribute [grind →] models pending

@[refl, simp] theorem refl (s : ModelSet) : s.SameModels s := ⟨rfl, rfl⟩

theorem trans (h : s.SameModels s') (h' : s'.SameModels s'') : s.SameModels s'' :=
  ⟨h'.models.trans h.models, h'.pending.trans h.pending⟩

theorem isLoaded (h : s.SameModels s') (n : String) : s'.isLoaded n = s.isLoaded n := by
  simp only [ModelSet.isLoaded, model?, h.models]

theorem knows_iff (h : s.SameModels s') : s'.Knows n ↔ s.Knows n := by
  rw [Knows, Knows, h.isLoaded]
  grind

@[simp] theorem takeStamp (s : ModelSet) : s.SameModels s.takeStamp.2 := ⟨rfl, rfl⟩

theorem register {t : Ty} (h : s.register n t = .ok s') : s.SameModels s' := by
  unfold ModelSet.register at h
  split at h
  · split at h <;> cases h
    exact .refl s
  · cases h
    exact ⟨rfl, rfl⟩

@[simp] theorem request (c : Container) (s : ModelSet) : s.SameModels (c.request s).2 :=
  ⟨c.request_models, c.request_pending⟩

end SameModels

/-- Every model has a name of its own, and comes after the models that it includes. -/
structure Ordered (s : ModelSet) : Prop where
  named : ∀ m ∈ s.models, ∃ n, m.name = some n
  distinct : (s.models.map (·.name)).Nodup
  includes : ∀ (i : Nat) (m : Model), s.models[i]? = some m → ∀ n ∈ m.includes,
    ∃ j < i, ∃ m' : Model, s.models[j]? = some m' ∧ m'.name = some n

namespace Ordered

@[simp] theorem empty : ModelSet.empty.Ordered := ⟨nofun, .nil, nofun⟩

/-- Names lead to the models that have them. -/
theorem model?_eq_some_iff (h : s.Ordered) :
    s.model? n = some m ↔ m ∈ s.models ∧ m.name = some n := by
  have distinct : (s.models.reverse.map (·.name)).Nodup := by
    rw [List.map_reverse]
    exact List.nodup_reverse.mpr h.distinct
  unfold model?
  rw [find?_eq_some_iff_of_nodup distinct, List.mem_reverse]

theorem of_models (h : s.Ordered) (models : s'.models = s.models) : s'.Ordered :=
  ⟨models ▸ h.named, models ▸ h.distinct, models ▸ h.includes⟩

/-- A model is finished after its includes. -/
theorem finish (h : s.Ordered) (name : m.name = some n) (new : s.isLoaded n ≠ true)
    (included : ∀ k ∈ m.includes, s.isLoaded k = true) : (s.finish m).Ordered := by
  have models : (s.finish m).models = s.models ++ [m] := by rw [finish_named name]
  refine ⟨?_, ?_, ?_⟩ <;> rw [models]
  · intro m' member
    rcases List.mem_append.mp member with old | last
    · exact h.named m' old
    · exact ⟨n, List.mem_singleton.mp last ▸ name⟩
  · rw [List.map_append, List.map_singleton]
    refine h.distinct.append (List.nodup_singleton _) ?_
    rintro _ old last
    obtain ⟨m', member, rfl⟩ := List.mem_map.mp old
    exact new (isLoaded_iff.mpr ⟨m', member, (List.mem_singleton.mp last).trans name⟩)
  · intro i m' here k member
    have earlier : ∃ j < i, ∃ m'' : Model, s.models[j]? = some m'' ∧ m''.name = some k := by
      by_cases old : i < s.models.length
      · rw [List.getElem?_append_left old] at here
        exact h.includes i m' here k member
      · rw [List.getElem?_append_right (Nat.not_lt.mp old)] at here
        have same : m' = m :=
          List.mem_singleton.mp (List.mem_of_getElem? here)
        obtain ⟨m'', loaded, name'⟩ := isLoaded_iff.mp (included k (same ▸ member))
        obtain ⟨j, there⟩ := List.getElem?_of_mem loaded
        obtain ⟨bound, _⟩ := List.getElem?_eq_some_iff.mp there
        exact ⟨j, by omega, m'', there, name'⟩
    obtain ⟨j, before, m'', there, name'⟩ := earlier
    obtain ⟨bound, _⟩ := List.getElem?_eq_some_iff.mp there
    exact ⟨j, before, m'', by rw [List.getElem?_append_left bound, there], name'⟩

end Ordered

end ModelSet

namespace Model

variable {s s' : ModelSet} {m m' : Model} {t : Ty} {name : String}

/-- A declaration keeps the includes of its model, and the models of the set. -/
@[grind →]
theorem addEnum_keeps {body : Enumeration} (h : m.addEnum s name body = .ok (t, m', s')) :
    m'.includes = m.includes ∧ s.SameModels s' := by
  obtain ⟨_, _, h⟩ := bind_eq_ok h
  obtain ⟨_, registered, h⟩ := bind_eq_ok h
  cases h
  exact ⟨rfl, (ModelSet.SameModels.takeStamp s).trans (.register registered)⟩

@[grind →] theorem addRecord_keeps {isException : Bool} {body : Record Ty}
    (h : m.addRecord s isException name body = .ok (t, m', s')) :
    m'.includes = m.includes ∧ s.SameModels s' := by
  obtain ⟨_, _, h⟩ := bind_eq_ok h
  obtain ⟨_, registered, h⟩ := bind_eq_ok h
  cases h
  refine ⟨?_, (ModelSet.SameModels.takeStamp s).trans (.register registered)⟩
  split <;> rfl

@[grind →] theorem addConst_includes {c : Constant} (h : m.addConst s c = .ok m') :
    m'.includes = m.includes := by
  obtain ⟨_, _, h⟩ := bind_eq_ok h
  cases h
  rfl

@[grind →] theorem addService_includes {service : Service} (h : m.addService s service = .ok m') :
    m'.includes = m.includes := by
  obtain ⟨_, _, h⟩ := bind_eq_ok h
  cases h
  rfl

@[grind →] theorem addNamespace_includes {ns : Namespace} (h : m.addNamespace ns = .ok m') :
    m'.includes = m.includes := by
  unfold addNamespace at h
  split at h <;> cases h
  rfl

@[simp, grind =] theorem mem_addInclude {k : String} :
    k ∈ (m.addInclude name).includes ↔ k ∈ m.includes ∨ k = name := by
  unfold addInclude
  split
  · rename_i there
    have member : name ∈ m.includes := by simpa using there
    exact ⟨.inl, fun h => h.elim id fun same => same ▸ member⟩
  · simp

end Model

end IdlGen
