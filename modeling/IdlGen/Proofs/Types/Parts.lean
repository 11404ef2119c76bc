import IdlGen.Types.Basic

/-!
# The parts of a type

A container is made of other types, which may be containers again. The parts of a type are the type
itself and whatever it is made of, at any depth. A record's fields are not parts of it: a record is
one part, known by its name. A model owns a type when it declares one of its parts.
-/

namespace IdlGen.Ty

/-- Whether the type was declared under a name of its own. -/
def isNamed : Ty → Bool
  | enum .. => true
  | record .. => true
  | _ => false

/-- The type and all that it is made of. -/
def parts : Ty → List Ty
  | list k e => list k e :: e.parts
  | set k e => set k e :: e.parts
  | map n k v => map n k v :: (k.parts ++ v.parts)
  | t => [t]

@[simp] theorem self_mem_parts (t : Ty) : t ∈ t.parts := by
  cases t <;> simp [parts]

/-- What holds of a type and passes from a container to its elements holds of all parts. -/
theorem forall_parts {P : Ty → Prop} (down : ∀ t e, P t → e ∈ t.elements → P e) {t : Ty}
    (holds : P t) : ∀ p ∈ t.parts, P p := by
  induction t using parts.induct with
  | case1 k e ih =>
      intro p member
      rcases List.mem_cons.mp member with rfl | inside
      · exact holds
      · exact ih (down _ _ holds (by simp [elements])) p inside
  | case2 k e ih =>
      intro p member
      rcases List.mem_cons.mp member with rfl | inside
      · exact holds
      · exact ih (down _ _ holds (by simp [elements])) p inside
  | case3 n k v ihk ihv =>
      intro p member
      rcases List.mem_cons.mp member with rfl | inside
      · exact holds
      · rcases List.mem_append.mp inside with inKey | inValue
        · exact ihk (down _ _ holds (by simp [elements])) p inKey
        · exact ihv (down _ _ holds (by simp [elements])) p inValue
  | case4 t =>
      intro p member
      simp_all [parts]

/-- The name of a named type is qualified by its model. -/
theorem qname_eq_qualify (t : Ty) : t.qname = qualify t.modelName? t.name := by
  cases t <;> rfl

theorem modelName?_eq_none_of_not_isNamed {t : Ty} (h : t.isNamed = false) :
    t.modelName? = none := by
  cases t <;> simp_all [isNamed, modelName?]

@[grind →] theorem isNamed_of_modelName? {t : Ty} {n : String} (h : t.modelName? = some n) :
    t.isNamed = true := by
  cases t <;> simp_all [isNamed, modelName?]

@[grind →]
theorem elements_eq_nil_of_isNamed {t : Ty} (h : t.isNamed = true) : t.elements = [] := by
  cases t <;> simp_all [isNamed, elements]

/-- A model owns a type exactly if it declares one of its parts. -/
theorem ownedBy_iff {t : Ty} {n : String} :
    t.ownedBy n = true ↔ ∃ p ∈ t.parts, p.modelName? = some n := by
  induction t using parts.induct with
  | case1 k e ih => simp [ownedBy, parts, modelName?, ih]
  | case2 k e ih => simp [ownedBy, parts, modelName?, ih]
  | case3 m k v ihk ihv => simp [ownedBy, parts, modelName?, ihk, ihv, or_and_right, exists_or]
  | case4 t notList notSet notMap => cases t <;> simp_all [ownedBy, parts]

/-- A container is owned through its elements only. -/
theorem ownedBy_iff_elements {t : Ty} {n : String} :
    t.ownedBy n = true ↔ t.modelName? = some n ∨ ∃ e ∈ t.elements, e.ownedBy n = true := by
  cases t with
  | list | set | map => simp [ownedBy, elements, modelName?]
  | prim | enum | record =>
      simp only [elements, List.not_mem_nil, false_and, exists_false, or_false]
      exact decide_eq_true_iff

@[grind →] theorem ownedBy_of_modelName? {t : Ty} {n : String} (h : t.modelName? = some n) :
    t.ownedBy n = true :=
  ownedBy_iff_elements.mpr (.inl h)

@[simp] theorem same_self (t : Ty) : t.same t = true := by
  cases t <;> simp [same, stamp?]

/-- Being the same type means having the same stamp, or being the same primitive. -/
theorem same_iff {t u : Ty} :
    t.same u = true ↔
      (∃ p, t = prim p ∧ u = prim p) ∨ ∃ k, t.stamp? = some k ∧ u.stamp? = some k := by
  cases t <;> cases u <;> simp [same, stamp?, eq_comm]

end IdlGen.Ty
