import IdlGen.Types.Value

/-!
# Values without repetition

A set keeps the first of equal items, a map the first of equal keys. Equality of values is symmetric
but not reflexive, since a NaN differs from itself. So what a set keeps is told by its places and
not by its items: the values at any two places differ. Values of this kind are kept as they are.
-/

namespace IdlGen

theorem Double.numericEq_comm (x y : Double) : x.numericEq y = y.numericEq x := by
  simp only [numericEq, eq_comm (a := x.bits), Bool.and_comm x.isZero,
    Bool.and_comm (!x.isNaN)]

namespace Value

mutual

theorem equal_comm (a b : Value) : a.equal b = b.equal a := by
  cases a with
  | list as =>
      cases b with
      | list bs => exact equalAll_comm as bs
      | _ => rfl
  | set as =>
      cases b with
      | set bs => exact equalAll_comm as bs
      | _ => rfl
  | map as =>
      cases b with
      | map bs => exact equalEntries_comm as bs
      | _ => rfl
  | double x =>
      cases b with
      | double y => exact x.numericEq_comm y
      | _ => rfl
  | null | bool | int | char | str | binary | enum =>
      cases b <;> simp [equal, eq_comm]

theorem equalAll_comm (as bs : List Value) : equalAll as bs = equalAll bs as := by
  cases as with
  | nil => cases bs <;> rfl
  | cons a as =>
      cases bs with
      | nil => rfl
      | cons b bs => simp only [equalAll, equal_comm a b, equalAll_comm as bs]

theorem equalEntries_comm (as bs : List (Value × Value)) :
    equalEntries as bs = equalEntries bs as := by
  cases as with
  | nil => cases bs <;> rfl
  | cons a as =>
      cases bs with
      | nil => rfl
      | cons b bs =>
          obtain ⟨k, v⟩ := a
          obtain ⟨k', v'⟩ := b
          simp only [equalEntries, equal_comm k k', equal_comm v v', equalEntries_comm as bs]

end

/-- Neither value equals the other. -/
def Differ (a b : Value) : Prop := a.equal b = false ∧ b.equal a = false

@[simp] theorem differ_iff {a b : Value} : a.Differ b ↔ a.equal b = false := by
  unfold Differ
  rw [equal_comm b a, and_self]

variable {items : List Value} {v key value : Value} {entries : List (Value × Value)}

theorem addNew_of_differ (new : ∀ a ∈ items, a.Differ v) : addNew items v = items ++ [v] := by
  refine if_neg fun found => ?_
  obtain ⟨a, member, same⟩ := List.any_eq_true.mp found
  exact Bool.eq_false_iff.mp (new a member).1 same

theorem pairwise_addNew (before : items.Pairwise Differ) : (addNew items v).Pairwise Differ := by
  unfold addNew
  split
  · exact before
  · rename_i new
    refine List.pairwise_append.mpr ⟨before, List.pairwise_singleton _ _, ?_⟩
    intro a member b last
    cases List.mem_singleton.mp last
    refine differ_iff.mpr (Bool.eq_false_iff.mpr fun same => new ?_)
    exact List.any_eq_true.mpr ⟨a, member, same⟩

theorem mem_addNew {a : Value} (h : a ∈ addNew items v) : a ∈ items ∨ a = v := by
  unfold addNew at h
  split at h
  · exact .inl h
  · simpa using h

/-- No two items that are kept are equal. -/
theorem pairwise_distinct (items : List Value) : (distinct items).Pairwise Differ := by
  suffices fold : ∀ acc : List Value, acc.Pairwise Differ → (items.foldl addNew acc).Pairwise Differ
    from fold [] .nil
  induction items with
  | nil => exact fun acc before => before
  | cons v rest ih => exact fun acc before => ih (addNew acc v) (pairwise_addNew before)

theorem mem_of_mem_distinct (h : v ∈ distinct items) : v ∈ items := by
  suffices fold : ∀ acc : List Value, v ∈ items.foldl addNew acc → v ∈ acc ∨ v ∈ items
    from (fold [] h).resolve_left List.not_mem_nil
  clear h
  induction items with
  | nil => exact fun acc member => .inl member
  | cons w rest ih =>
      intro acc member
      rcases ih (addNew acc w) member with added | later
      · rcases mem_addNew added with old | rfl
        · exact .inl old
        · exact .inr List.mem_cons_self
      · exact .inr (List.mem_cons_of_mem w later)

/-- Items that differ are all kept, in their order. -/
theorem distinct_eq_self (differ : items.Pairwise Differ) : distinct items = items := by
  suffices fold : ∀ acc : List Value, (acc ++ items).Pairwise Differ →
      items.foldl addNew acc = acc ++ items
    from fold [] differ
  clear differ
  induction items with
  | nil => exact fun acc _ => (List.append_nil acc).symm
  | cons v rest ih =>
      intro acc differ
      have new : ∀ a ∈ acc, a.Differ v := fun a member =>
        (List.pairwise_append.mp differ).2.2 a member v List.mem_cons_self
      rw [List.foldl_cons, addNew_of_differ new, ih (acc ++ [v]) (by simpa using differ)]
      simp

/-- A key that is there keeps its place, any other goes to the end. -/
@[simp] theorem map_fst_put (key value : Value) (entries : List (Value × Value)) :
    (put key value entries).map Prod.fst = addNew (entries.map Prod.fst) key := by
  induction entries with
  | nil => rfl
  | cons entry rest ih =>
      obtain ⟨k, v⟩ := entry
      by_cases same : k.equal key = true
      · simp [put, addNew, same]
      · have step : (put key value ((k, v) :: rest)).map Prod.fst =
            k :: addNew (rest.map Prod.fst) key := by
          simp [put, same, ih]
        rw [step]
        simp only [addNew, List.map_cons, List.any_cons, same, Bool.false_or]
        split <;> rfl

theorem mem_snd_put (h : v ∈ (put key value entries).map Prod.snd) :
    v ∈ entries.map Prod.snd ∨ v = value := by
  induction entries with
  | nil => exact .inr (List.mem_singleton.mp h)
  | cons entry rest ih =>
      unfold put at h
      split at h
      · rcases List.mem_cons.mp h with rfl | later
        · exact .inr rfl
        · exact .inl (List.mem_cons_of_mem _ later)
      · rcases List.mem_cons.mp h with rfl | later
        · exact .inl List.mem_cons_self
        · exact (ih later).imp_left (List.mem_cons_of_mem _)

theorem put_of_differ (new : ∀ e ∈ entries, e.1.Differ key) :
    put key value entries = entries ++ [(key, value)] := by
  induction entries with
  | nil => rfl
  | cons entry rest ih =>
      have head : entry.1.equal key = false := (new entry List.mem_cons_self).1
      simp [put, head, ih fun e member => new e (List.mem_cons_of_mem _ member)]

/-- The keys of a map are kept like the items of a set. -/
@[simp] theorem map_fst_collapse (entries : List (Value × Value)) :
    (collapse entries).map Prod.fst = distinct (entries.map Prod.fst) := by
  suffices fold : ∀ acc : List (Value × Value),
      (entries.foldl (fun es e => put e.1 e.2 es) acc).map Prod.fst =
        (entries.map Prod.fst).foldl addNew (acc.map Prod.fst)
    from fold []
  induction entries with
  | nil => exact fun acc => rfl
  | cons entry rest ih =>
      intro acc
      rw [List.foldl_cons, ih, map_fst_put, List.map_cons, List.foldl_cons]

theorem mem_snd_collapse (h : v ∈ (collapse entries).map Prod.snd) : v ∈ entries.map Prod.snd := by
  suffices fold : ∀ acc : List (Value × Value),
      v ∈ (entries.foldl (fun es e => put e.1 e.2 es) acc).map Prod.snd →
        v ∈ acc.map Prod.snd ∨ v ∈ entries.map Prod.snd
    from (fold [] h).resolve_left List.not_mem_nil
  clear h
  induction entries with
  | nil => exact fun acc member => .inl member
  | cons entry rest ih =>
      intro acc member
      rcases ih _ member with added | later
      · rcases mem_snd_put added with old | rfl
        · exact .inl old
        · exact .inr List.mem_cons_self
      · exact .inr (List.mem_cons_of_mem _ later)

/-- Entries whose keys differ are all kept, in their order. -/
theorem collapse_eq_self (differ : (entries.map Prod.fst).Pairwise Differ) :
    collapse entries = entries := by
  suffices fold : ∀ acc : List (Value × Value), ((acc ++ entries).map Prod.fst).Pairwise Differ →
      entries.foldl (fun es e => put e.1 e.2 es) acc = acc ++ entries
    from fold [] differ
  clear differ
  induction entries with
  | nil => exact fun acc _ => (List.append_nil acc).symm
  | cons entry rest ih =>
      obtain ⟨k, v⟩ := entry
      intro acc differ
      have new : ∀ e ∈ acc, e.1.Differ k := by
        intro e member
        rw [List.map_append] at differ
        exact (List.pairwise_append.mp differ).2.2 e.1 (List.mem_map_of_mem member) k
          List.mem_cons_self
      rw [List.foldl_cons, put_of_differ new, ih (acc ++ [(k, v)]) (by simpa using differ)]
      simp

end Value

end IdlGen
