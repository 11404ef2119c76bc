import IdlGen.Proofs.Model.Order

/-!
# Items that are found by their names

Items are kept in the order in which they were added. Beside them stands the place of each name, so
that an item is found without a search. An addition changes both in place, step by step, and some
additions fail. That the places lead to the items is an invariant of additions, and it makes looking
up a place and searching the items the same.

What additions do in place is compared with a function that returns the changed items or an error.
It is enough to compare single additions: the rest is the same for fields and functions, and is
proved here.
-/

namespace IdlGen

/-- A name leads to the place of the item that has it. -/
def Locates {α : Type} (name : α → String) (items : List α) (places : List (String × Nat)) : Prop :=
  ∀ n i, places.lookup n = some i ↔ ∃ a, items[i]? = some a ∧ name a = n

namespace Locates

variable {α : Type} {name : α → String} {items : List α} {places : List (String × Nat)} {n : String}
  {a : α}

@[simp] theorem nil : Locates name [] [] := by
  simp [Locates]

theorem isSome_lookup_iff (locates : Locates name items places) :
    (places.lookup n).isSome = true ↔ ∃ a ∈ items, name a = n := by
  rw [Option.isSome_iff_exists]
  constructor
  · rintro ⟨i, found⟩
    obtain ⟨a, here, named⟩ := (locates n i).mp found
    exact ⟨a, List.mem_of_getElem? here, named⟩
  · rintro ⟨a, member, named⟩
    obtain ⟨i, here⟩ := List.getElem?_of_mem member
    exact ⟨i, (locates n i).mpr ⟨a, here, named⟩⟩

theorem concat (locates : Locates name items places) (new : ¬ ∃ b ∈ items, name b = name a) :
    Locates name (items ++ [a]) ((name a, items.length) :: places) := by
  intro n i
  have getElem : ∀ b, (items ++ [a])[i]? = some b ↔
      items[i]? = some b ∨ i = items.length ∧ b = a := by
    intro b
    rw [List.getElem?_append]
    grind
  by_cases same : n = name a
  · rw [same, List.lookup_cons_self, Option.some_inj]
    constructor
    · rintro rfl
      exact ⟨a, (getElem a).mpr (.inr ⟨rfl, rfl⟩), rfl⟩
    · rintro ⟨b, here, named⟩
      rcases (getElem b).mp here with old | ⟨last, _⟩
      -- An older item of this name would now be hidden behind the new one.
      · exact absurd ⟨b, List.mem_of_getElem? old, named⟩ new
      · exact last.symm
  · rw [List.lookup_cons, beq_false_of_ne same, locates n i]
    constructor
    · rintro ⟨b, here, named⟩
      exact ⟨b, (getElem b).mpr (.inl here), named⟩
    · rintro ⟨b, here, named⟩
      rcases (getElem b).mp here with old | ⟨_, rfl⟩
      · exact ⟨b, old, named⟩
      · exact absurd named.symm same

/-- What stands at the place of a name is the item of that name. -/
theorem bind_getElem?_eq_some_iff (locates : Locates name items places) :
    (places.lookup n).bind (items[·]?) = some a ↔ a ∈ items ∧ name a = n := by
  rw [Option.bind_eq_some_iff]
  constructor
  · rintro ⟨i, found, here⟩
    obtain ⟨b, here', named⟩ := (locates n i).mp found
    obtain rfl := Option.some.inj (here'.symm.trans here)
    exact ⟨List.mem_of_getElem? here, named⟩
  · rintro ⟨member, named⟩
    obtain ⟨i, here⟩ := List.getElem?_of_mem member
    exact ⟨i, (locates n i).mpr ⟨a, here, named⟩, here⟩

/-- No name has two places, so no two items have the same one. -/
theorem nodup (locates : Locates name items places) : (items.map name).Nodup := by
  refine List.nodup_iff_getElem?_ne_getElem?.mpr fun i j less short same => ?_
  have long : i < (items.map name).length := Nat.lt_trans less short
  rw [List.getElem?_eq_getElem short, List.getElem?_eq_getElem long, List.getElem_map,
    List.getElem_map, Option.some_inj] at same
  have first := (locates _ i).mpr ⟨_, List.getElem?_eq_getElem (by simpa using long), same⟩
  have second := (locates _ j).mpr ⟨_, List.getElem?_eq_getElem (by simpa using short), rfl⟩
  exact Nat.ne_of_lt less (Option.some.inj (first.symm.trans second))

/-- What stands at the place of a name is what a search finds. -/
theorem bind_getElem?_eq_find? (locates : Locates name items places) (n : String) :
    (places.lookup n).bind (items[·]?) = items.find? (name · = n) := by
  refine Option.ext fun a => ?_
  rw [locates.bind_getElem?_eq_some_iff, find?_eq_some_iff_of_nodup locates.nodup]

end Locates

section

variable {ρ α : Type}

/-- What is there after some additions. Those that fail change nothing. -/
def addAll (add : ρ → α → Except ModelError ρ) (r : ρ) (calls : List α) : ρ :=
  calls.foldl (fun r a => (add r a).toOption.getD r) r

/-- What was added. -/
def accepted (add : ρ → α → Except ModelError ρ) (r : ρ) : List α → List α
  | [] => []
  | a :: calls =>
    match add r a with
    | .ok r' => a :: accepted add r' calls
    | .error _ => accepted add r calls

variable {add : ρ → α → Except ModelError ρ} {r r' : ρ} {a : α} {error : ModelError}

theorem addAll_cons_of_ok (added : add r a = .ok r') (calls : List α) :
    addAll add r (a :: calls) = addAll add r' calls := by
  rw [addAll, List.foldl_cons, added]
  rfl

theorem addAll_cons_of_error (refused : add r a = .error error) (calls : List α) :
    addAll add r (a :: calls) = addAll add r calls := by
  rw [addAll, List.foldl_cons, refused]
  rfl

/-- What one addition keeps is kept by all of them. -/
theorem addAll_induction {P : ρ → Prop} (step : ∀ {r a r'}, P r → add r a = .ok r' → P r')
    (start : P r) (calls : List α) : P (addAll add r calls) := by
  induction calls generalizing r with
  | nil => exact start
  | cons a calls ih =>
      cases added : add r a with
      | ok r' =>
          rw [addAll_cons_of_ok added]
          exact ih (step start added)
      | error error =>
          rw [addAll_cons_of_error added]
          exact ih start

/-- If additions go to the end of a list, it consists of what was added. -/
theorem items_addAll {items : ρ → List α}
    (step : ∀ {r a r'}, add r a = .ok r' → items r' = items r ++ [a]) (r : ρ) (calls : List α) :
    items (addAll add r calls) = items r ++ accepted add r calls := by
  induction calls generalizing r with
  | nil => exact (List.append_nil _).symm
  | cons a calls ih =>
      cases added : add r a with
      | ok r' =>
          rw [addAll_cons_of_ok added, ih, accepted, added, step added, List.append_assoc]
          rfl
      | error error => rw [addAll_cons_of_error added, ih, accepted, added]

end

/-- A change in place. What was done before an error stays done. -/
abbrev InPlace (σ : Type) := ExceptT ModelError (StateM σ)

namespace InPlace

variable {σ α β : Type} {s s' : σ}

def exec (x : InPlace σ α) (s : σ) : Except ModelError α × σ := x.run.run s

@[simp]
theorem exec_get_bind (f : σ → InPlace σ α) (s : σ) : exec (get >>= f) s = exec (f s) s := rfl

theorem exec_bind_ok {x : InPlace σ α} {f : α → InPlace σ β} {a : α}
    (h : x.exec s = (.ok a, s')) : exec (x >>= f) s = (f a).exec s' := by
  simp only [exec, ExceptT.run_bind, StateT.run_bind] at h ⊢
  rw [h]
  rfl

theorem exec_bind_error {x : InPlace σ α} {f : α → InPlace σ β} {e : ModelError}
    (h : x.exec s = (.error e, s')) : exec (x >>= f) s = (.error e, s') := by
  simp only [exec, ExceptT.run_bind, StateT.run_bind] at h ⊢
  rw [h]
  rfl

end InPlace

section

variable {σ ρ α : Type}

/-- What is there after some additions in place. -/
def insertAll (insert : α → InPlace σ Unit) (s : σ) (calls : List α) : σ :=
  calls.foldl (fun s a => ((insert a).exec s).2) s

/-- While the invariant holds, additions in place return and leave what the function says, and leave
everything as it was if they fail. -/
structure Refines (insert : α → InPlace σ Unit) (add : ρ → α → Except ModelError ρ) (view : σ → ρ)
    (Inv : σ → Prop) : Prop where
  error : ∀ {s a error}, Inv s → add (view s) a = .error error →
    (insert a).exec s = (.error error, s)
  ok : ∀ {s a r}, Inv s → add (view s) a = .ok r →
    ∃ s', (insert a).exec s = (.ok (), s') ∧ view s' = r ∧ Inv s'

theorem Refines.insertAll {insert : α → InPlace σ Unit} {add : ρ → α → Except ModelError ρ}
    {view : σ → ρ} {Inv : σ → Prop} (refines : Refines insert add view Inv) {s : σ} (inv : Inv s)
    (calls : List α) :
    Inv (insertAll insert s calls) ∧
      view (IdlGen.insertAll insert s calls) = addAll add (view s) calls := by
  induction calls generalizing s with
  | nil => exact ⟨inv, rfl⟩
  | cons a calls ih =>
      rw [IdlGen.insertAll, List.foldl_cons]
      cases added : add (view s) a with
      | ok r =>
          obtain ⟨s', done, rfl, inv'⟩ := refines.ok inv added
          rw [done, addAll_cons_of_ok added]
          exact ih inv'
      | error error =>
          rw [refines.error inv added, addAll_cons_of_error added]
          exact ih inv

end

end IdlGen
