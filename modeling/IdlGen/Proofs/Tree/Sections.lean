import IdlGen.Spec.Options
import Mathlib.Data.List.Basic
import Mathlib.Data.List.Nodup

/-!
# Sections without repeated keys

A section is read at the first member with a key, and an overlay writes members one after the other,
so the last of them wins. The two agree where no key is repeated. Trees with that property in every
object are closed under all that is done with them, and in them an overlay is read layer by layer.
-/

namespace IdlGen

namespace Tree

mutual

/-- Whether no object inside repeats a key. -/
def isKeyed : Tree → Bool
  | list xs => isKeyedItems xs
  | object ms => decide (ms.map Prod.fst).Nodup && isKeyedMembers ms
  | _ => true

def isKeyedItems : List Tree → Bool
  | [] => true
  | t :: rest => isKeyed t && isKeyedItems rest

def isKeyedMembers : List (String × Tree) → Bool
  | [] => true
  | (_, t) :: rest => isKeyed t && isKeyedMembers rest

end

@[simp] theorem isKeyed_list_iff {xs : List Tree} : (list xs).isKeyed ↔ ∀ x ∈ xs, x.isKeyed := by
  rw [isKeyed]
  induction xs with
  | nil => simp [isKeyedItems]
  | cons x xs ih => simp [isKeyedItems, ih]

@[simp] theorem isKeyed_object_iff {ms : Section} :
    (object ms).isKeyed ↔ (ms.map Prod.fst).Nodup ∧ ∀ m ∈ ms, m.2.isKeyed := by
  have members : isKeyedMembers ms ↔ ∀ m ∈ ms, m.2.isKeyed := by
    induction ms with
    | nil => simp [isKeyedMembers]
    | cons m ms ih => simp [isKeyedMembers, ih]
  rw [isKeyed, Bool.and_eq_true, decide_eq_true_iff, members]

end Tree

namespace Section

/-- No key is repeated, neither here nor in any object inside. -/
def Keyed (s : Section) : Prop := (Tree.object s).isKeyed

instance (s : Section) : Decidable s.Keyed := inferInstanceAs (Decidable (_ = true))

variable {s base top : Section} {key k : String} {value : Tree}

@[simp, grind =] theorem get?_nil : get? [] k = none := rfl

@[simp, grind =]
theorem get?_cons : get? ((key, value) :: s) k = if k = key then some value else s.get? k := by
  unfold get?
  rw [List.lookup_cons]
  by_cases same : k = key
  · simp [same]
  · rw [if_neg same, beq_false_of_ne same]

@[simp, grind =] theorem get?_insert :
    (s.insert key value).get? k = if k = key then some value else s.get? k := by
  induction s with
  | nil => rw [insert, get?_cons]
  | cons m s ih =>
      obtain ⟨first, old⟩ := m
      rw [insert]
      split
      · next here =>
          rw [get?_cons, get?_cons, here]
          by_cases same : k = key
          · simp [same]
          · simp [same]
      · next other =>
          rw [get?_cons, get?_cons, ih]
          by_cases same : k = key
          · simp [same, Ne.symm other]
          · simp [same]

@[simp] theorem get?_eq_none_iff : s.get? k = none ↔ k ∉ s.map Prod.fst := by
  induction s with
  | nil => simp
  | cons m s ih =>
      rw [get?_cons, List.map_cons, List.mem_cons, not_or, ← ih]
      by_cases same : k = m.1
      · simp [same]
      · simp [same]

/-- Where no key is repeated, what is written over a section is read before what was there. -/
@[simp] theorem get?_overlay (nodup : (top.map Prod.fst).Nodup) :
    (base.overlay top).get? k = (top.get? k).or (base.get? k) := by
  induction top generalizing base with
  | nil => rfl
  | cons m top ih =>
      obtain ⟨key, value⟩ := m
      obtain ⟨fresh, rest⟩ := List.nodup_cons.1 nodup
      change ((base.insert key value).overlay top).get? k = _
      rw [ih rest, get?_insert, get?_cons]
      by_cases same : k = key
      · rw [if_pos same, if_pos same, same, get?_eq_none_iff.2 fresh]
        rfl
      · rw [if_neg same, if_neg same]

/-- A section is read layer by layer: each key has its value in the first layer that contains it. -/
def Layers (s : Section) (layers : List Section) : Prop :=
  ∀ k, s.get? k = layers.findSome? (·.get? k)

@[simp] theorem layers_self (s : Section) : s.Layers [s] := by
  intro k
  cases read : s.get? k <;> simp [read]

theorem Layers.overlay {layers : List Section} (below : base.Layers layers)
    (nodup : (top.map Prod.fst).Nodup) : (base.overlay top).Layers (top :: layers) := by
  intro k
  rw [get?_overlay nodup, below k, List.findSome?_cons]
  cases top.get? k <;> rfl

theorem keyed_nil : Keyed [] := rfl

theorem Keyed.nodup (keyed : s.Keyed) : (s.map Prod.fst).Nodup :=
  (Tree.isKeyed_object_iff.1 keyed).1

theorem mem_of_get? (read : s.get? k = some value) : (k, value) ∈ s := by
  obtain ⟨front, back, split, _⟩ := List.lookup_eq_some_iff.1 read
  rw [split]
  exact List.mem_append_right front List.mem_cons_self

theorem get?_of_mem (nodup : (s.map Prod.fst).Nodup) (member : (k, value) ∈ s) :
    s.get? k = some value := by
  induction s with
  | nil => exact absurd member List.not_mem_nil
  | cons m s ih =>
      obtain ⟨fresh, rest⟩ := List.nodup_cons.1 nodup
      rw [get?_cons]
      obtain rfl | member := List.mem_cons.1 member
      · exact if_pos rfl
      · have other : k ≠ m.1 := fun same => fresh (same ▸ List.mem_map_of_mem member)
        rw [if_neg other]
        exact ih rest member

theorem Keyed.get? (keyed : s.Keyed) (read : s.get? k = some value) : value.isKeyed :=
  (Tree.isKeyed_object_iff.1 keyed).2 _ (mem_of_get? read)

theorem Keyed.sub (keyed : s.Keyed) (k : String) : (s.sub k).Keyed := by
  unfold Section.sub
  split
  · next members read => exact keyed.get? read
  · exact keyed_nil

theorem Keyed.items (keyed : s.Keyed) {k : String} {x : Tree} (member : x ∈ s.items k) :
    x.isKeyed := by
  unfold Section.items at member
  split at member
  · exact absurd member List.not_mem_nil
  · exact absurd member List.not_mem_nil
  · next xs read => exact Tree.isKeyed_list_iff.1 (keyed.get? read) x member
  · next read =>
      obtain rfl := List.mem_singleton.1 member
      exact keyed.get? read

@[simp] theorem map_fst_insert (s : Section) (key : String) (value : Tree) :
    (s.insert key value).map Prod.fst =
      if key ∈ s.map Prod.fst then s.map Prod.fst else s.map Prod.fst ++ [key] := by
  induction s with
  | nil => rfl
  | cons m s ih =>
      obtain ⟨first, old⟩ := m
      rw [Section.insert]
      by_cases here : first = key
      · simp [here]
      · rw [if_neg here, List.map_cons, ih, List.map_cons]
        by_cases known : key ∈ s.map Prod.fst
        · simp only [known, List.mem_cons, or_true, if_true]
        · simp [known, Ne.symm here]

theorem mem_insert {m : String × Tree} (member : m ∈ s.insert key value) :
    m.2 = value ∨ m ∈ s := by
  induction s with
  | nil => simp_all [Section.insert]
  | cons first s ih =>
      rw [Section.insert] at member
      split at member
      · obtain rfl | member := List.mem_cons.1 member
        · exact .inl rfl
        · exact .inr (List.mem_cons_of_mem _ member)
      · obtain rfl | member := List.mem_cons.1 member
        · exact .inr List.mem_cons_self
        · exact (ih member).imp id (List.mem_cons_of_mem _)

theorem nodup_insert (nodup : (s.map Prod.fst).Nodup) :
    ((s.insert key value).map Prod.fst).Nodup := by
  rw [map_fst_insert]
  split
  · exact nodup
  · next fresh =>
      rw [← List.concat_eq_append]
      exact nodup.concat fresh

theorem Keyed.insert (keyed : s.Keyed) (key : String) (valueKeyed : value.isKeyed) :
    (s.insert key value).Keyed := by
  obtain ⟨nodup, values⟩ := Tree.isKeyed_object_iff.1 keyed
  apply Tree.isKeyed_object_iff.2
  constructor
  · exact nodup_insert nodup
  · intro m member
    obtain same | member := mem_insert member
    · exact same ▸ valueKeyed
    · exact values m member

end Section

end IdlGen
