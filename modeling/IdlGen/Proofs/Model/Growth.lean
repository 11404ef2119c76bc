import IdlGen.Proofs.Model.WellFormed

/-!
# How a model set grows

Loading only adds to a set. `Advance` says what that means for the two ends of a piece of work: what
was registered stays, models are appended, and what is new carries a new stamp and belongs to a
model that is new as well, or is one of the types that the work itself declares.

`Progress` and `Setback` are the two ways in which such a piece can end. After progress, every new
model is sound: all types it mentions are registered. After a setback some of them may have gone
with the model that owned them, and exactly those; the types of models that are known stay.

`Evolves` is what is left when the work is looked at in the middle, where types of a failed model
may disappear: a type that is gone never comes back, and a container stays as long as its elements.
-/

namespace IdlGen

def FieldSet.types (s : FieldSet Ty) : List Ty := s.fields.map (·.type)

/-- The types of a record's fields. -/
def Ty.fieldTypes (t : Ty) : List Ty := (t.record?.map (·.fields.types)).getD []

/-- The types of a function's result, arguments and exceptions. -/
def Function.types (f : Function) : List Ty := f.result :: (f.args.types ++ f.throws.types)

namespace Model

/-- The types that the declarations of a model are written with. -/
def uses (m : Model) : List Ty :=
  m.consts.map (·.type) ++ (m.structs ++ m.exceptions).flatMap Ty.fieldTypes ++
    m.services.flatMap (·.body.functions.flatMap Function.types)

/-- The types that a model mentions: those it uses, and all that they are made of. -/
def mentions (m : Model) : List Ty := m.uses.flatMap Ty.parts

/-- The registry holds what the model declares and what it uses. -/
structure Sound (m : Model) (s : ModelSet) : Prop where
  declared : ∀ t ∈ m.named, s.Holds t ∧ t.isNamed = true ∧ t.modelName? = m.name
  uses : ∀ t ∈ m.uses, t ≠ .void → s.Holds t

/-- Of the types that the model mentions, the registry holds those whose owners are all known. -/
def Settled (m : Model) (s : ModelSet) : Prop :=
  ∀ t ∈ m.mentions, t ≠ .void →
    (∀ k, t.stamp? = some k → k < s.stamps.next) ∧
      (s.Holds t ↔ ∀ n, t.ownedBy n = true → s.Knows n)

variable {m : Model} {s s' : ModelSet}

theorem Sound.mono (sound : m.Sound s) (holds : ∀ {t}, s.Holds t → s'.Holds t) : m.Sound s' where
  declared t member := (sound.declared t member).imp_left holds
  uses t member visible := holds (sound.uses t member visible)

theorem Sound.mentions (sound : m.Sound s) (wf : s.WellFormed) {t : Ty} (member : t ∈ m.mentions)
    (visible : t ≠ .void) : s.Holds t := by
  obtain ⟨u, used, part⟩ := List.mem_flatMap.mp member
  refine wf.parts (sound.uses u used ?_) t part
  rintro rfl
  exact visible (by simpa [Ty.void, Ty.parts] using part)

theorem Sound.settled (sound : m.Sound s) (wf : s.WellFormed) : m.Settled s := by
  intro t member visible
  have held := sound.mentions wf member visible
  exact ⟨fun k stamp => wf.stamped held stamp,
    fun _ n owned => wf.known_of_ownedBy held owned, fun _ => held⟩

end Model

namespace ModelSet

/-- From `s` to `s'`, the models `new` were loaded, and otherwise only types of `D` declared. -/
structure Advance (D : Ty → Prop) (s : ModelSet) (new : List Model) (s' : ModelSet) : Prop where
  pending : s'.pending = s.pending
  models : s'.models = s.models ++ new
  holds : ∀ {t}, s.Holds t → s'.Holds t
  next_le : s.stamps.next ≤ s'.stamps.next
  stamp : ∀ {t}, s'.Holds t → ¬ s.Holds t → ∃ k, t.stamp? = some k ∧ s.stamps.next ≤ k
  named : ∀ {t}, s'.Holds t → ¬ s.Holds t → t.isNamed = true →
    D t ∨ ∃ n, t.modelName? = some n ∧ s'.isLoaded n = true ∧ ¬ s.Knows n

namespace Advance

attribute [grind →] pending models

variable {D D' : Ty → Prop} {s s' s'' : ModelSet} {new new' : List Model} {n : String}

@[simp] theorem refl (s : ModelSet) : s.Advance D [] s where
  pending := rfl
  models := (List.append_nil _).symm
  holds := id
  next_le := Nat.le_refl _
  stamp held lost := absurd held lost
  named held lost := absurd held lost

theorem loaded (h : s.Advance D new s') (before : s.isLoaded n = true) : s'.isLoaded n = true :=
  isLoaded_of_prefix (h.models ▸ List.prefix_append _ _) before

theorem knows (h : s.Advance D new s') (before : s.Knows n) : s'.Knows n := by
  rcases before with loaded | pending
  · exact .inl (h.loaded loaded)
  · exact .inr (by grind)

theorem trans (h : s.Advance D new s') (h' : s'.Advance D new' s'') :
    s.Advance D (new ++ new') s'' where
  pending := h'.pending.trans h.pending
  models := by rw [h'.models, h.models, List.append_assoc]
  holds held := h'.holds (h.holds held)
  next_le := Nat.le_trans h.next_le h'.next_le
  stamp := by
    intro t held lost
    by_cases middle : s'.Holds t
    · exact h.stamp middle lost
    · obtain ⟨k, stamp, late⟩ := h'.stamp held middle
      exact ⟨k, stamp, Nat.le_trans h.next_le late⟩
  named := by
    intro t held lost named
    by_cases middle : s'.Holds t
    · exact (h.named middle lost named).imp_right
        fun ⟨n, declares, loaded, unknown⟩ => ⟨n, declares, h'.loaded loaded, unknown⟩
    · exact (h'.named held middle named).imp_right
        fun ⟨n, declares, loaded, unknown⟩ => ⟨n, declares, loaded, unknown ∘ h.knows⟩

theorem mono (h : s.Advance D new s') (imp : ∀ t, D t → D' t) : s.Advance D' new s' :=
  { h with named := fun held lost named => (h.named held lost named).imp_left (imp _) }

@[simp] theorem takeStamp (s : ModelSet) : s.Advance D [] s.takeStamp.2 where
  pending := rfl
  models := (List.append_nil _).symm
  holds := id
  next_le := Nat.le_succ _
  stamp held lost := absurd held lost
  named held lost := absurd held lost

theorem add {t : Ty} (free : s.type? t.qname = none) (stamp : t.stamp? = some s.stamps.next)
    (named : t.isNamed = true → D t) : s.Advance D [] (s.add t) where
  pending := rfl
  models := (List.append_nil _).symm
  holds held := (holds_add_iff free).mpr (.inl held)
  next_le := Nat.le_succ _
  stamp := by
    intro u held lost
    rcases (holds_add_iff free).mp held with old | rfl
    · exact absurd old lost
    · exact ⟨_, stamp, Nat.le_refl _⟩
  named := by
    intro u held lost isNamed
    rcases (holds_add_iff free).mp held with old | rfl
    · exact absurd old lost
    · exact .inl (named isNamed)

end Advance

/-- The set grew, and every new model is sound. -/
def Progress (D : Ty → Prop) (s s' : ModelSet) : Prop :=
  ∃ new, s.Advance D new s' ∧ s'.WellFormed ∧ ∀ m ∈ new, m.Sound s'

/-- The set grew, but a model failed on the way. -/
def Setback (D : Ty → Prop) (s s' : ModelSet) : Prop :=
  ∃ new, s.Advance D new s' ∧ s'.WellFormed ∧ ∀ m ∈ new, m.Settled s'

variable {D D' : Ty → Prop} {s s' s'' : ModelSet} {t : Ty} {n : String} {m : Model}

@[grind →] theorem Setback.wellFormed (h : s.Setback D s') : s'.WellFormed := by
  obtain ⟨_, _, wf, _⟩ := h
  exact wf

namespace Progress

theorem refl (wf : s.WellFormed) : s.Progress D s :=
  ⟨[], .refl s, wf, by simp⟩

@[grind →] theorem wellFormed (h : s.Progress D s') : s'.WellFormed := by
  obtain ⟨_, _, wf, _⟩ := h
  exact wf

theorem holds (h : s.Progress D s') (held : s.Holds t) : s'.Holds t := by
  obtain ⟨_, advance, _, _⟩ := h
  exact advance.holds held

theorem isPending (h : s.Progress D s') (pending : s.isPending n = true) :
    s'.isPending n = true := by
  obtain ⟨_, advance, _, _⟩ := h
  grind

theorem trans (h : s.Progress D s') (h' : s'.Progress D s'') : s.Progress D s'' := by
  obtain ⟨new, advance, _, sound⟩ := h
  obtain ⟨new', advance', wf, sound'⟩ := h'
  refine ⟨new ++ new', advance.trans advance', wf, fun m member => ?_⟩
  rcases List.mem_append.mp member with old | recent
  · exact (sound m old).mono advance'.holds
  · exact sound' m recent

/-- A setback undoes no progress made before it. -/
theorem trans_setback (h : s.Progress D s') (h' : s'.Setback D s'') : s.Setback D s'' := by
  obtain ⟨new, advance, _, sound⟩ := h
  obtain ⟨new', advance', wf, settled⟩ := h'
  refine ⟨new ++ new', advance.trans advance', wf, fun m member => ?_⟩
  rcases List.mem_append.mp member with old | recent
  · exact ((sound m old).mono advance'.holds).settled wf
  · exact settled m recent

@[grind →] theorem setback (h : s.Progress D s') : s.Setback D s' := by
  obtain ⟨new, advance, wf, sound⟩ := h
  exact ⟨new, advance, wf, fun m member => (sound m member).settled wf⟩

theorem mono (h : s.Progress D s') (imp : ∀ t, D t → D' t) : s.Progress D' s' := by
  obtain ⟨new, advance, rest⟩ := h
  exact ⟨new, advance.mono imp, rest⟩

theorem takeStamp (wf : s.WellFormed) : s.Progress D s.takeStamp.2 :=
  ⟨[], .takeStamp s, wf.takeStamp, by simp⟩

end Progress

theorem Setback.mono (h : s.Setback D s') (imp : ∀ t, D t → D' t) : s.Setback D' s' := by
  obtain ⟨new, advance, rest⟩ := h
  exact ⟨new, advance.mono imp, rest⟩

theorem Setback.holds (h : s.Setback D s') (held : s.Holds t) : s'.Holds t := by
  obtain ⟨_, advance, _⟩ := h
  exact advance.holds held

@[grind →] theorem Setback.pending (h : s.Setback D s') : s'.pending = s.pending := by
  obtain ⟨_, advance, _⟩ := h
  exact advance.pending

theorem Setback.isPrefix (h : s.Setback D s') : s.models <+: s'.models := by
  obtain ⟨_, advance, _⟩ := h
  exact advance.models ▸ List.prefix_append _ _

/-- A model is an old one or comes after the old ones. -/
theorem Setback.mem_models (h : s.Setback D s') (member : m ∈ s'.models) :
    m ∈ s.models ∨ m ∈ s'.models.drop s.models.length := by
  obtain ⟨new, advance, _⟩ := h
  rw [advance.models] at member ⊢
  rw [List.drop_left]
  exact List.mem_append.mp member

/-- Every new model is settled. -/
theorem Setback.settled (h : s.Setback D s') (new : m ∈ s'.models.drop s.models.length) :
    m.Settled s' := by
  obtain ⟨models, advance, _, settled⟩ := h
  rw [advance.models, List.drop_left] at new
  exact settled m new

/-- No name that stood for a type stands for another one, or for none. -/
theorem Setback.type? (h : s.Setback D s') (wf : s.WellFormed) {k : String}
    (found : s.type? k = some t) : s'.type? k = some t := by
  obtain ⟨_, advance, _⟩ := h
  have held : s'.Holds t := advance.holds (wf.holds found)
  exact wf.keyed found ▸ held

/-- A name that is free was free before. -/
theorem Setback.free (h : s.Setback D s') (wf : s.WellFormed) {k : String}
    (free : s'.type? k = none) : s.type? k = none := by
  refine Option.eq_none_iff_forall_ne_some.mpr fun t found => ?_
  rw [h.type? wf found] at free
  cases free

/-- A named type that is new belongs to a model that is new as well, or is one of `D`. -/
theorem Setback.owner (h : s.Setback D s') {k : String} (found : s'.type? k = some t)
    (free : s.type? k = none) (named : t.isNamed = true) :
    D t ∨ ∃ m ∈ s'.models.drop s.models.length, ∃ owner,
      m.name = some owner ∧ t.modelName? = some owner := by
  obtain ⟨_, advance, wf, _⟩ := id h
  have lost : ¬ s.Holds t := by
    unfold Holds
    rw [wf.keyed found, free]
    exact nofun
  refine (advance.named (wf.holds found) lost named).imp_right ?_
  rintro ⟨owner, declares, loaded, unknown⟩
  obtain ⟨m, member, name⟩ := isLoaded_iff.mp loaded
  refine ⟨m, (h.mem_models member).resolve_left fun old => unknown (.inl ?_), owner, name, declares⟩
  exact isLoaded_iff.mpr ⟨m, old, name⟩

/-- The growth since the name of a model became pending, seen from before that. -/
theorem Advance.of_reserve {new : List Model} (h : (s.reserve n).Advance D new s') :
    s.models ++ new = s'.models ∧ (∀ {t}, s.Holds t → s'.Holds t) ∧
      s'.pending = n :: s.pending ∧
      ∀ {k}, ¬ (s.reserve n).Knows k → ¬ s.Knows k := by
  exact ⟨h.models.symm, h.holds, h.pending, fun unknown known => unknown (by simp [known])⟩

theorem filter_pending (unknown : ¬ s.Knows n) : (n :: s.pending).filter (· ≠ n) = s.pending := by
  have free : n ∉ s.pending := fun member => unknown (.inr (isPending_iff.mpr member))
  rw [List.filter_cons_of_neg (by simp), List.filter_eq_self]
  intro k member
  simpa using fun same : k = n => free (same ▸ member)

/-- A model that is finished adds itself to the progress made while it was built. -/
theorem Progress.finish (unknown : ¬ s.Knows n)
    (h : (s.reserve n).Progress (·.modelName? = some n) s') (name : m.name = some n)
    (sound : m.Sound s') : s.Progress (fun _ => False) (s'.finish m) := by
  obtain ⟨new, advance, wf, newSound⟩ := h
  obtain ⟨models, holds, pending, unknown'⟩ := advance.of_reserve
  have finished := finish_named (s := s') name
  refine ⟨new ++ [m], ?_, wf.finish name sound.declared, ?_⟩
  · exact {
      pending := by rw [finished, pending]; exact filter_pending unknown
      models := by rw [finished, ← List.append_assoc, models]
      holds := fun held => holds_finish.mpr (holds held)
      next_le := by simpa using advance.next_le
      stamp := fun held lost => advance.stamp (holds_finish.mp held) lost
      named := by
        intro t held lost named
        refine .inr ?_
        rcases advance.named (holds_finish.mp held) lost named with own | ⟨k, declares, hk, new⟩
        · exact ⟨n, own, (isLoaded_finish_iff name).mpr (.inr rfl), unknown⟩
        · exact ⟨k, declares, (isLoaded_finish_iff name).mpr (.inl hk), unknown' new⟩ }
  · intro m' member
    rcases List.mem_append.mp member with old | last
    · exact (newSound m' old).mono holds_finish.mpr
    · cases List.mem_singleton.mp last
      exact sound.mono holds_finish.mpr

/-- A model that is abandoned takes its types along. What else was done while it was built stays,
and the set is as if the model had never been started. -/
theorem Setback.abandon (wf : s.WellFormed) (unknown : ¬ s.Knows n)
    (h : (s.reserve n).Setback (·.modelName? = some n) s') :
    s.Setback (fun _ => False) (s'.abandon n) ∧ ¬ (s'.abandon n).Knows n := by
  obtain ⟨new, advance, wf', settled⟩ := h
  obtain ⟨models, holds, pending, unknown'⟩ := advance.of_reserve
  have isPending : s'.isPending n = true := by grind
  have holds_iff : ∀ {t}, (s'.abandon n).Holds t ↔ s'.Holds t ∧ t.ownedBy n = false :=
    holds_abandon_iff wf'.nodup
  have knows_iff : ∀ {k}, (s'.abandon n).Knows k ↔ s'.Knows k ∧ k ≠ n :=
    wf'.knows_abandon_iff isPending
  refine ⟨⟨new, ?_, wf'.abandon isPending, ?_⟩, fun known => (knows_iff.mp known).2 rfl⟩
  · exact {
      pending := (congrArg (List.filter (· ≠ n)) pending).trans (filter_pending unknown)
      models := models.symm
      holds := by
        intro t held
        refine holds_iff.mpr ⟨holds held, Bool.eq_false_iff.mpr fun owned => unknown ?_⟩
        exact wf.known_of_ownedBy held owned
      next_le := advance.next_le
      stamp := fun held lost => advance.stamp (holds_iff.mp held).1 lost
      named := by
        intro t held lost named
        obtain ⟨held, free⟩ := holds_iff.mp held
        rcases advance.named held lost named with own | ⟨k, declares, loaded, new⟩
        · exact absurd (Ty.ownedBy_of_modelName? own) (Bool.eq_false_iff.mp free)
        · exact .inr ⟨k, declares, loaded, unknown' new⟩ }
  · intro m member t mentioned visible
    obtain ⟨stamped, held_iff⟩ := settled m member t mentioned visible
    refine ⟨stamped, ?_⟩
    rw [holds_iff, held_iff]
    constructor
    · rintro ⟨known, free⟩ k owned
      refine knows_iff.mpr ⟨known k owned, ?_⟩
      rintro rfl
      exact Bool.eq_false_iff.mp free owned
    · intro known
      refine ⟨fun k owned => (knows_iff.mp (known k owned)).1, ?_⟩
      exact Bool.eq_false_iff.mpr fun owned => (knows_iff.mp (known n owned)).2 rfl

/-- What can be said of any two moments, the later one possibly after a failure. -/
structure Evolves (s s' : ModelSet) : Prop where
  next_le : s.stamps.next ≤ s'.stamps.next
  /-- A type that was not there before has a stamp that was not given out before. -/
  stamp : ∀ {t}, s'.Holds t → ¬ s.Holds t → ∃ k, t.stamp? = some k ∧ s.stamps.next ≤ k
  /-- A container stays as long as its elements do. -/
  retains : ∀ {t}, s.Holds t → t.elements ≠ [] → (∀ e ∈ t.elements, s'.Holds e) → s'.Holds t

namespace Evolves

@[refl, simp] theorem refl (s : ModelSet) : s.Evolves s where
  next_le := Nat.le_refl _
  stamp held lost := absurd held lost
  retains held _ _ := held

/-- A registered type that is registered at a later moment was so all the time in between. -/
theorem holds_between (wf : s.WellFormed) (h : s.Evolves s') (h' : s'.Evolves s'')
    (first : s.Holds t) (last : s''.Holds t) : s'.Holds t := by
  refine Classical.byContradiction fun lost => ?_
  obtain ⟨k, stamp, late⟩ := h'.stamp last lost
  exact absurd (wf.stamped first stamp) (Nat.not_lt.mpr (Nat.le_trans h.next_le late))

theorem trans (wf : s.WellFormed) (h : s.Evolves s') (h' : s'.Evolves s'') : s.Evolves s'' where
  next_le := Nat.le_trans h.next_le h'.next_le
  stamp := by
    intro t held lost
    by_cases middle : s'.Holds t
    · exact h.stamp middle lost
    · obtain ⟨k, stamp, late⟩ := h'.stamp held middle
      exact ⟨k, stamp, Nat.le_trans h.next_le late⟩
  retains := by
    intro t held container elements
    refine h'.retains (h.retains held container fun e member => ?_) container elements
    exact holds_between wf h h' (wf.elements held member) (elements e member)

theorem of_advance {new : List Model} (h : s.Advance D new s') : s.Evolves s' where
  next_le := h.next_le
  stamp := h.stamp
  retains held _ _ := h.holds held

theorem of_setback (h : s.Setback D s') : s.Evolves s' := by
  obtain ⟨_, advance, _⟩ := h
  exact .of_advance advance

@[simp] theorem reserve (s : ModelSet) (n : String) : s.Evolves (s.reserve n) where
  next_le := Nat.le_refl _
  stamp held lost := absurd held lost
  retains held _ _ := held

theorem abandon (wf : s.WellFormed) : s.Evolves (s.abandon n) where
  next_le := Nat.le_refl _
  stamp held lost := absurd ((holds_abandon_iff wf.nodup).mp held).1 lost
  retains := by
    intro t held container elements
    refine (holds_abandon_iff wf.nodup).mpr ⟨held, Bool.eq_false_iff.mpr fun owned => ?_⟩
    rcases Ty.ownedBy_iff_elements.mp owned with declares | ⟨e, member, owned⟩
    · exact container (Ty.elements_eq_nil_of_isNamed (Ty.isNamed_of_modelName? declares))
    · have free := ((holds_abandon_iff wf.nodup).mp (elements e member)).2
      exact Bool.eq_false_iff.mp free owned

@[simp] theorem finish (s : ModelSet) (m : Model) : s.Evolves (s.finish m) where
  next_le := by simp
  stamp held lost := absurd (holds_finish.mp held) lost
  retains held _ _ := holds_finish.mpr held

/-- Types that are registered at two moments are the same only if they are equal. -/
theorem eq_of_same {u : Ty} (wf : s.WellFormed) (h : s.Evolves s') (first : s.Holds t)
    (second : s'.Holds u) (same : t.same u = true) : t = u := by
  by_cases old : s.Holds u
  · exact wf.distinct first old same
  · obtain ⟨k, stamp, late⟩ := h.stamp second old
    obtain ⟨p, rfl, rfl⟩ | ⟨k', ht, hu⟩ := Ty.same_iff.mp same
    · rfl
    · have early := wf.stamped first ht
      rw [hu] at stamp
      cases stamp
      exact absurd early (Nat.not_lt.mpr late)

end Evolves

end ModelSet

end IdlGen
