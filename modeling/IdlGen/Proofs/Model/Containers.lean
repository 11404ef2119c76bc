import IdlGen.Proofs.Model.Growth
import IdlGen.Proofs.Types.Container

/-!
# Containers in the registry

What the registry does when it is asked for a container is the same for all kinds: it gives the type
that has the container's name, or makes it with the next stamp.
-/

namespace IdlGen

namespace Container

/-- Asks the registry for a container. -/
def request (s : ModelSet) : Container → Ty × ModelSet
  | list e => s.listType e
  | set e => s.setType e
  | map k v => s.mapType k v

variable {c : Container} {D : Ty → Prop} {s : ModelSet}

theorem request_eq_typeOrNew : c.request s = s.typeOrNew (c.make 0).qname c.make := by
  cases c <;> rfl

/-- The answer is the type that has the container's name, or a new one under the next stamp. -/
theorem request_cases (c : Container) (s : ModelSet) :
    (∃ known, s.type? (c.make 0).qname = some known ∧ c.request s = (known, s)) ∨
      s.type? (c.make s.stamps.next).qname = none ∧
        c.request s = (c.make s.stamps.next, s.add (c.make s.stamps.next)) := by
  rw [request_eq_typeOrNew]
  rcases s.typeOrNew_cases fun _ => make_qname with known | ⟨missing, result⟩
  · exact .inl known
  · refine .inr ⟨?_, result⟩
    rw [make_qname]
    exact missing

@[simp, grind =] theorem request_models : (c.request s).2.models = s.models := by
  rcases c.request_cases s with ⟨known, _, result⟩ | ⟨_, result⟩
  · rw [result]
  · rw [result, ModelSet.add_models]

@[simp, grind =] theorem request_pending : (c.request s).2.pending = s.pending := by
  rcases c.request_cases s with ⟨known, _, result⟩ | ⟨_, result⟩
  · rw [result]
  · rw [result, ModelSet.add_pending]

/-- A request over registered types makes progress, and its answer is registered. -/
theorem request_progress (wf : s.WellFormed) (held : ∀ e ∈ c.elements, s.Holds e) :
    s.Progress D (c.request s).2 ∧ (c.request s).2.Holds (c.request s).1 := by
  rcases c.request_cases s with ⟨known, found, result⟩ | ⟨free, result⟩
  · rw [result]
    exact ⟨.refl wf, wf.holds found⟩
  · rw [result]
    refine ⟨⟨[], .add free make_stamp? ?_, wf.add free make_stamp? ?_ ?_ ?_, by simp⟩, ?_⟩
    · simp
    · simpa using held
    · simp
    · simp [Ty.modelName?_eq_none_of_not_isNamed]
    · exact (ModelSet.holds_add_iff free).mpr (.inr rfl)

end Container

end IdlGen
