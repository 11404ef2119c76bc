import IdlGen.Model.ModelSet
import IdlGen.Proofs.Types.Parts
import Mathlib.Tactic.Simps.Basic

/-!
# The registry of a model set

What each operation on a model set does, seen through two questions: which types the registry holds
under their own names, and which model names are known to the set. The lemmas on the operations
speak of these two only, so that later proofs do not look at the lists behind them.
-/

namespace IdlGen

/-- A sequence of two steps succeeds if both do. -/
theorem bind_eq_ok {ε α β : Type} {x : Except ε α} {f : α → Except ε β} {b : β}
    (h : (x >>= f) = .ok b) : ∃ a, x = .ok a ∧ f a = .ok b := by
  cases x with
  | ok a => exact ⟨a, rfl, h⟩
  | error e => cases h

theorem eq_ok_of_toOption {ε α : Type} {x : Except ε α} {a : α} (h : x.toOption = some a) :
    x = .ok a := by
  cases x with
  | ok b => exact congrArg _ (Option.some.inj h)
  | error e => cases h

/-- Filtering a table without repeated keys filters what each key leads to. -/
theorem lookup_filter_of_nodup {β : Type} {table : List (String × β)} (p : String × β → Bool)
    (k : String) (nodup : (table.map Prod.fst).Nodup) :
    (table.filter p).lookup k = (table.lookup k).filter fun b => p (k, b) := by
  induction table with
  | nil => rfl
  | cons entry rest ih =>
      obtain ⟨key, b⟩ := entry
      obtain ⟨notMem, nodupRest⟩ := List.nodup_cons.mp nodup
      by_cases hk : k = key
      · subst hk
        have rest_none : rest.lookup k = none := by
          refine List.lookup_eq_none_iff.mpr fun entry member => bne_iff_ne.mpr fun same => ?_
          exact notMem (List.mem_map.mpr ⟨entry, member, same.symm⟩)
        cases hp : p (k, b) with
        | true => simp [hp, Option.filter]
        | false => simp [hp, ih nodupRest, rest_none, Option.filter]
      · have hb : (k == key) = false := beq_eq_false_iff_ne.mpr hk
        cases hp : p (key, b) <;> simp [hp, hb, List.lookup_cons, ih nodupRest]

namespace ModelSet

variable {s : ModelSet} {t u : Ty} {n : String}

/-- The registry holds this very type under the type's own name. -/
def Holds (s : ModelSet) (t : Ty) : Prop := s.type? t.qname = some t

/-- A model of this name is loaded or being built. -/
def Knows (s : ModelSet) (n : String) : Prop := s.isLoaded n = true ∨ s.isPending n = true

/-- One name leads to one type. -/
theorem Holds.unique (first : s.Holds t) (second : s.Holds u) (same : t.qname = u.qname) :
    t = u := by
  unfold Holds at first second
  rw [same, second] at first
  exact (Option.some.inj first).symm

@[grind =] theorem isLoaded_iff : s.isLoaded n = true ↔ ∃ m ∈ s.models, m.name = some n := by
  simp [isLoaded, model?]

@[grind =] theorem isPending_iff : s.isPending n = true ↔ n ∈ s.pending := by
  simp [isPending]

theorem isLoaded_of_prefix {s' : ModelSet} (models : s.models <+: s'.models)
    (loaded : s.isLoaded n = true) : s'.isLoaded n = true := by
  obtain ⟨m, member, name⟩ := isLoaded_iff.mp loaded
  exact isLoaded_iff.mpr ⟨m, models.subset member, name⟩

theorem type?_of_mem {k : String} {t : Ty} (nodup : (s.types.map Prod.fst).Nodup)
    (member : (k, t) ∈ s.types) : s.type? k = some t := by
  obtain ⟨front, back, split⟩ := List.append_of_mem member
  refine List.lookup_eq_some_iff.mpr ⟨front, back, split, fun entry inFront => ?_⟩
  rw [split, List.map_append, List.nodup_append] at nodup
  exact bne_iff_ne.mpr fun same =>
    nodup.2.2 entry.1 (List.mem_map_of_mem inFront) k (by simp) same.symm

/-- The set with one more type, which has used up the next stamp. -/
def add (s : ModelSet) (t : Ty) : ModelSet :=
  { s.takeStamp.2 with types := s.types ++ [(t.qname, t)] }

@[simp, grind =] theorem add_models : (s.add t).models = s.models := rfl

@[simp, grind =] theorem add_pending : (s.add t).pending = s.pending := rfl

@[simp, grind =] theorem takeStamp_type? (k : String) : s.takeStamp.2.type? k = s.type? k := rfl

@[simp, grind =] theorem add_type? (new : s.type? t.qname = none) (k : String) :
    (s.add t).type? k = if k = t.qname then some t else s.type? k := by
  have step : (s.add t).type? k = (s.type? k).or ([(t.qname, t)].lookup k) :=
    List.lookup_append
  rw [step]
  by_cases hk : k = t.qname
  · subst hk
    simp [new]
  · have hb : (k == t.qname) = false := beq_eq_false_iff_ne.mpr hk
    simp [hk, hb, List.lookup_cons]

/-- Adding a type under a free name adds it to those held and takes none away. -/
@[simp, grind =] theorem holds_add_iff (new : s.type? t.qname = none) :
    (s.add t).Holds u ↔ s.Holds u ∨ u = t := by
  unfold Holds
  rw [add_type? new]
  by_cases hq : u.qname = t.qname
  · rw [if_pos hq, hq, new]
    constructor
    · intro h
      exact .inr (Option.some.inj h).symm
    · rintro (h | rfl)
      · cases h
      · rfl
  · rw [if_neg hq]
    constructor
    · exact .inl
    · rintro (h | rfl)
      · exact h
      · exact absurd rfl hq

/-- A type that is asked for by name is there already, or it is added. -/
theorem typeOrNew_cases (s : ModelSet) {name : String} {make : Nat → Ty}
    (named : ∀ k, (make k).qname = name) :
    (∃ known, s.type? name = some known ∧ s.typeOrNew name make = (known, s)) ∨
      s.type? name = none ∧
        s.typeOrNew name make = (make s.stamps.next, s.add (make s.stamps.next)) := by
  cases h : s.type? name with
  | some known => exact .inl ⟨known, rfl, by simp [typeOrNew, h]⟩
  | none =>
      refine .inr ⟨rfl, ?_⟩
      simp only [typeOrNew, h, add, named]
      rfl

/-- A declared type that takes the next stamp is added, unless its name stands for a type already:
then only a type with that very stamp would be accepted. -/
theorem register_cases {s' : ModelSet} (stamped : t.stamp? = some s.stamps.next)
    (registered : s.takeStamp.2.register t.qname t = .ok s') :
    s.type? t.qname = none ∧ s' = s.add t ∨
      ∃ known, s.type? t.qname = some known ∧ known.stamp? = some s.stamps.next := by
  cases h : s.type? t.qname with
  | none =>
      simp only [register, takeStamp_type?, h, Except.ok.injEq] at registered
      exact .inl ⟨rfl, registered.symm⟩
  | some known =>
      simp only [register, takeStamp_type?, h] at registered
      split at registered
      · rename_i same
        refine .inr ⟨known, rfl, ?_⟩
        obtain ⟨p, rfl, rfl⟩ | ⟨k, hknown, ht⟩ := Ty.same_iff.mp same
        · simp [Ty.stamp?] at stamped
        · rw [hknown, ← ht, stamped]
      · cases registered

/-- The set in which a model of this name is being built. -/
@[simps] def reserve (s : ModelSet) (n : String) : ModelSet := { s with pending := n :: s.pending }

@[simp, grind =] theorem isPending_reserve_iff {k : String} :
    (s.reserve n).isPending k = true ↔ s.isPending k = true ∨ k = n := by
  rw [isPending_iff, isPending_iff]
  simp [reserve, or_comm]

@[simp, grind =]
theorem knows_reserve_iff {k : String} : (s.reserve n).Knows k ↔ s.Knows k ∨ k = n := by
  unfold Knows
  rw [isPending_reserve_iff, or_assoc]
  rfl

@[simp, grind =] theorem create_eq_ok_iff {m : Model} {s' : ModelSet} :
    s.create n = .ok (m, s') ↔ ¬ s.Knows n ∧ m = { name := some n } ∧ s' = s.reserve n := by
  unfold create Knows reserve
  by_cases loaded : s.isLoaded n <;> by_cases pending : s.isPending n <;>
    simp [loaded, pending, eq_comm]

theorem finish_named {m : Model} (name : m.name = some n) :
    s.finish m =
      { s with pending := s.pending.filter (· ≠ n), models := s.models ++ [m] } := by
  simp [finish, name]

@[simp, grind =] theorem finish_anonymous {m : Model} (name : m.name = none) : s.finish m = s := by
  simp [finish, name]

@[simp, grind =] theorem finish_types {m : Model} : (s.finish m).types = s.types := by
  cases name : m.name <;> simp [finish, name]

@[simp, grind =] theorem finish_stamps {m : Model} : (s.finish m).stamps = s.stamps := by
  cases name : m.name <;> simp [finish, name]

@[simp, grind =]
theorem finish_type? {m : Model} (k : String) : (s.finish m).type? k = s.type? k := by
  simp [type?]

@[simp, grind =] theorem holds_finish {m : Model} : (s.finish m).Holds t ↔ s.Holds t := by
  simp [Holds]

/-- Finishing a model loads it and nothing else. -/
theorem isLoaded_finish_iff {m : Model} (name : m.name = some n) {k : String} :
    (s.finish m).isLoaded k = true ↔ s.isLoaded k = true ∨ k = n := by
  rw [finish_named name, isLoaded_iff, isLoaded_iff]
  constructor
  · rintro ⟨m', member, hk⟩
    rcases List.mem_append.mp member with old | new
    · exact .inl ⟨m', old, hk⟩
    · cases List.mem_singleton.mp new
      exact .inr (Option.some.inj (hk.symm.trans name))
  · rintro (⟨m', member, hk⟩ | rfl)
    · exact ⟨m', List.mem_append_left _ member, hk⟩
    · exact ⟨m, List.mem_append_right _ (List.mem_singleton_self m), name⟩

theorem isPending_finish_iff {m : Model} (name : m.name = some n) {k : String} :
    (s.finish m).isPending k = true ↔ s.isPending k = true ∧ k ≠ n := by
  rw [finish_named name, isPending_iff, isPending_iff]
  simp

/-- A model that is known stays so when one is finished: what was pending is loaded then. -/
theorem Knows.finish {m : Model} (name : m.name = some n) {k : String} (known : s.Knows k) :
    (s.finish m).Knows k := by
  unfold Knows at known ⊢
  rw [isLoaded_finish_iff name, isPending_finish_iff name]
  grind

@[simp, grind =] theorem isPending_abandon_iff {k : String} :
    (s.abandon n).isPending k = true ↔ s.isPending k = true ∧ k ≠ n := by
  rw [isPending_iff, isPending_iff]
  simp [abandon]

@[simp, grind =]
theorem isLoaded_abandon (k : String) : (s.abandon n).isLoaded k = s.isLoaded k := rfl

/-- Abandoning a model takes away the types that it owns, and no others. -/
@[simp, grind =] theorem holds_abandon_iff (nodup : (s.types.map Prod.fst).Nodup) :
    (s.abandon n).Holds t ↔ s.Holds t ∧ t.ownedBy n = false := by
  have step : (s.abandon n).type? t.qname = (s.type? t.qname).filter fun u => !u.ownedBy n :=
    lookup_filter_of_nodup _ _ nodup
  unfold Holds
  rw [step]
  cases s.type? t.qname with
  | none => simp
  | some u =>
      simp only [Option.filter_some, Bool.not_eq_true', Option.ite_none_right_eq_some,
        Option.some.injEq]
      constructor
      · rintro ⟨free, rfl⟩
        exact ⟨rfl, free⟩
      · rintro ⟨rfl, free⟩
        exact ⟨free, rfl⟩

end ModelSet

end IdlGen
