import IdlGen.Proofs.Model.Containers
import IdlGen.Proofs.Types.Inhabits
import Mathlib.Order.Basic

/-!
# Literals with constants

What a check accepts becomes a value of the type, also where the literal refers to constants, as
long as these were made by checks themselves. So checking a value once more changes nothing, and it
makes no difference that a constant of the type in question is not checked again.

A constant is known to be of a type by the stamp. All this therefore rests on stamps: of the types
in use at the same time, no two have the same stamp. The registry sees to that.
-/

namespace IdlGen

/-- Types in use at the same time. The stamp of a type stands for that type alone. -/
structure TypeSpace where
  mem : Ty → Prop
  elements : ∀ {t e : Ty}, mem t → e ∈ t.elements → mem e
  identity : ∀ {t u : Ty}, mem t → mem u → t.same u = true → t = u

namespace TypeSpace

/-- A space is above another one if it has all of its types. -/
instance : Preorder TypeSpace where
  le a b := ∀ t, a.mem t → b.mem t
  le_refl _ _ := id
  le_trans _ _ _ first second t member := second t (first t member)

def primitives : TypeSpace where
  mem t := ∃ p, t = .prim p
  elements := by
    rintro t e ⟨p, rfl⟩ inside
    cases inside
  identity := by
    rintro t u ⟨p, rfl⟩ ⟨q, rfl⟩ same
    simpa [Ty.same] using same

/-- The space with one more type, which has a stamp that no other type has. -/
def insert (space : TypeSpace) (t : Ty) {k : Nat} (stamp : t.stamp? = some k)
    (fresh : ∀ u, space.mem u → u.stamp? ≠ some k) (elements : ∀ e ∈ t.elements, space.mem e) :
    TypeSpace where
  mem u := space.mem u ∨ u = t
  elements := by
    rintro u e (old | rfl) inside
    · exact .inl (space.elements old inside)
    · exact .inl (elements e inside)
  identity := by
    rintro u v (oldU | rfl) (oldV | rfl) same
    · exact space.identity oldU oldV same
    · obtain ⟨p, _, rfl⟩ | ⟨n, here, there⟩ := Ty.same_iff.mp same
      · cases stamp
      · exact absurd (here.trans (there.symm.trans stamp)) (fresh u oldU)
    · obtain ⟨p, rfl, _⟩ | ⟨n, here, there⟩ := Ty.same_iff.mp same
      · cases stamp
      · exact absurd (there.trans (here.symm.trans stamp)) (fresh v oldV)
    · rfl

end TypeSpace

/-- What a registry holds, and `void`. -/
def ModelSet.WellFormed.space {s : ModelSet} (wf : s.WellFormed) : TypeSpace where
  mem t := s.Holds t ∨ t = .void
  elements := by
    rintro t e (held | rfl) inside
    · exact .inl (wf.elements held inside)
    · cases inside
  identity := by
    rintro t u (heldT | rfl) (heldU | rfl) same
    · exact wf.distinct heldT heldU same
    · obtain ⟨p, rfl, void⟩ | ⟨k, _, stamp⟩ := Ty.same_iff.mp same
      · exact void.symm
      · cases stamp
    · obtain ⟨p, void, rfl⟩ | ⟨k, stamp, _⟩ := Ty.same_iff.mp same
      · exact void
      · cases stamp
    · rfl

namespace Literal

mutual

/-- The constants that a literal refers to, at any depth. -/
def constants : Literal → List Constant
  | .const c => [c]
  | .list items => constantsOfItems items
  | .map entries => constantsOfEntries entries
  | _ => []

def constantsOfItems : List Literal → List Constant
  | [] => []
  | item :: rest => item.constants ++ constantsOfItems rest

def constantsOfEntries : List (Literal × Literal) → List Constant
  | [] => []
  | (k, v) :: rest => k.constants ++ v.constants ++ constantsOfEntries rest

end

variable {c : Constant}

theorem mem_constants_list {items : List Literal} {item : Literal} (member : item ∈ items)
    (inside : c ∈ item.constants) : c ∈ (list items).constants := by
  have all : (list items).constants = items.flatMap constants := by
    clear member
    induction items with
    | nil => rfl
    | cons item rest ih => exact congrArg (item.constants ++ ·) ih
  rw [all]
  exact List.mem_flatMap.mpr ⟨item, member, inside⟩

theorem mem_constants_map {entries : List (Literal × Literal)} {entry : Literal × Literal}
    (member : entry ∈ entries) (inside : c ∈ entry.1.constants ++ entry.2.constants) :
    c ∈ (map entries).constants := by
  have all : (map entries).constants =
      entries.flatMap fun entry => entry.1.constants ++ entry.2.constants := by
    clear member
    induction entries with
    | nil => rfl
    | cons entry rest ih => exact congrArg (entry.1.constants ++ entry.2.constants ++ ·) ih
  rw [all]
  exact List.mem_flatMap.mpr ⟨entry, member, inside⟩

mutual

/-- A value refers to no constants. -/
@[simp] theorem constants_ofValue (v : Value) : (ofValue v).constants = [] := by
  cases v with
  | list items => exact constants_ofValues items
  | set items => exact constants_ofValues items
  | map entries => exact constants_ofEntries entries
  | _ => rfl

theorem constants_ofValues (items : List Value) : constantsOfItems (ofValues items) = [] := by
  cases items with
  | nil => rfl
  | cons v rest =>
      rw [ofValues, constantsOfItems, constants_ofValue v, constants_ofValues rest, List.nil_append]

theorem constants_ofEntries (entries : List (Value × Value)) :
    constantsOfEntries (ofEntries entries) = [] := by
  cases entries with
  | nil => rfl
  | cons e rest =>
      rw [ofEntries, constantsOfEntries, constants_ofValue e.1, constants_ofValue e.2,
        constants_ofEntries rest]
      rfl

end

end Literal

/-- The constant was made by checking a literal against its type, and so were the constants that
this literal refers to. -/
inductive Constant.Built (space : TypeSpace) : Constant → Prop
  | intro {model : Option String} {name : String} {type : Ty} {docs : Docs} {c : Constant}
      (lit : Literal) (member : space.mem type) (inner : ∀ d ∈ lit.constants, Built space d)
      (made : Constant.ofLiteral model name type lit docs = .ok c) : Built space c

/-- All constants that the literal refers to were made by checks. -/
def Literal.Built (space : TypeSpace) (lit : Literal) : Prop :=
  ∀ c ∈ lit.constants, c.Built space

theorem Constant.Built.mono {space wider : TypeSpace} {c : Constant} (built : c.Built space)
    (grown : space ≤ wider) : c.Built wider := by
  induction built with
  | intro lit member _ made ih => exact .intro lit (grown _ member) ih made

theorem Literal.Built.mono {space wider : TypeSpace} {lit : Literal} (built : lit.Built space)
    (grown : space ≤ wider) : lit.Built wider :=
  fun c inside => (built c inside).mono grown

/-- The constant holds a value of its type. -/
def Constant.Sound (space : TypeSpace) (c : Constant) : Prop :=
  space.mem c.type ∧ c.type.Inhabits c.value

namespace Ty.Inhabits

variable {space : TypeSpace} {t : Ty} {lit : Literal} {v : Value}

/-- `null` and constants are treated alike for all types. -/
theorem of_proper (member : space.mem t)
    (proper : ∀ {lit v}, lit.isProper = true → (∀ c ∈ lit.constants, c.Sound space) →
      t.check lit = .ok v → t.Inhabits v)
    (sound : ∀ c ∈ lit.constants, c.Sound space) (accepted : t.check lit = .ok v) :
    t.Inhabits v := by
  have null : ∀ {v}, t.check .null = .ok v → t.Inhabits v := by
    intro v accepted
    obtain ⟨rfl, nullable⟩ := check_null_iff.mp accepted
    exact .null nullable
  have value : ∀ w, t.check (Literal.ofValue w) = .ok v → t.Inhabits v := by
    intro w accepted
    have none : ∀ c ∈ (Literal.ofValue w).constants, c.Sound space := by
      simp
    cases w with
    | null => exact null accepted
    | _ => exact proper rfl none accepted
  cases lit with
  | null => exact null accepted
  | const c =>
      obtain ⟨inSpace, inhabits⟩ := sound c (List.mem_singleton_self c)
      rw [check_const] at accepted
      split at accepted
      · rename_i same
        cases accepted
        exact space.identity inSpace member same ▸ inhabits
      · exact value c.value accepted
  | _ => exact proper rfl sound accepted

theorem of_items {items : List Literal} {values : List Value}
    (each : ∀ {lit v}, (∀ c ∈ lit.constants, c.Sound space) → t.check lit = .ok v → t.Inhabits v)
    (sound : ∀ c ∈ (Literal.list items).constants, c.Sound space)
    (checked : List.Forall₂ (fun item value => t.check item = .ok value) items values) :
    ∀ v ∈ values, t.Inhabits v := by
  intro v inside
  obtain ⟨item, inItems, accepted⟩ := exists_of_mem_forall₂ checked inside
  exact each (fun c inItem => sound c (Literal.mem_constants_list inItems inItem)) accepted

/-- What a check accepts becomes a value of the type, if the constants hold values of theirs. -/
theorem of_check (member : space.mem t) (sound : ∀ c ∈ lit.constants, c.Sound space)
    (accepted : t.check lit = .ok v) : t.Inhabits v := by
  -- The induction is on what the type is made of; a literal has no part in it, since a constant
  -- may put a literal of any size into its place.
  induction t using Ty.parts.induct generalizing lit v with
  | case1 n e ih =>
      refine of_proper member (fun {lit v} proper sound accepted => ?_) sound accepted
      obtain ⟨items, values, rfl, rfl, checked⟩ := (check_list_iff proper).mp accepted
      exact .list (of_items (ih (space.elements member (by simp [elements]))) sound checked)
  | case2 n e ih =>
      refine of_proper member (fun {lit v} proper sound accepted => ?_) sound accepted
      obtain ⟨items, values, rfl, rfl, checked⟩ := (check_set_iff proper).mp accepted
      have each := of_items (ih (space.elements member (by simp [elements]))) sound checked
      exact .set (fun value inside => each value (Value.mem_of_mem_distinct inside))
        (Value.pairwise_distinct values)
  | case3 n key value ihKey ihValue =>
      refine of_proper member (fun {lit v} proper sound accepted => ?_) sound accepted
      obtain ⟨entries, pairs, rfl, rfl, checked⟩ := (check_map_iff proper).mp accepted
      refine .map ?_ ?_ ?_
      · intro k inside
        rw [Value.map_fst_collapse] at inside
        obtain ⟨pair, inPairs, rfl⟩ := List.mem_map.mp (Value.mem_of_mem_distinct inside)
        obtain ⟨entry, inEntries, accepted, _⟩ := exists_of_mem_forall₂ checked inPairs
        refine ihKey (space.elements member (by simp [elements])) (fun c inKey => ?_) accepted
        exact sound c (Literal.mem_constants_map inEntries (List.mem_append_left _ inKey))
      · intro w inside
        obtain ⟨pair, inPairs, rfl⟩ := List.mem_map.mp (Value.mem_snd_collapse inside)
        obtain ⟨entry, inEntries, _, accepted⟩ := exists_of_mem_forall₂ checked inPairs
        refine ihValue (space.elements member (by simp [elements])) (fun c inValue => ?_) accepted
        exact sound c (Literal.mem_constants_map inEntries (List.mem_append_right _ inValue))
      · rw [Value.map_fst_collapse]
        exact Value.pairwise_distinct _
  | case4 t notList notSet notMap =>
      refine of_proper member (fun {lit v} proper sound accepted => ?_) sound accepted
      cases t with
      | prim p =>
          rw [check_prim proper] at accepted
          exact Primitive.inhabits_of_check accepted
      | enum stamp model name body =>
          obtain ⟨element, rfl, rfl, owned⟩ := (check_enum_iff proper).mp accepted
          exact .enum owned
      | record => exact absurd accepted (check_record_ne_ok proper)
      | list n e => exact absurd rfl (notList n e)
      | set n e => exact absurd rfl (notSet n e)
      | map n key value => exact absurd rfl (notMap n key value)

end Ty.Inhabits

/-- A constant that was made by a check holds a value of its type. -/
theorem Constant.Built.sound {space : TypeSpace} {c : Constant} (built : c.Built space) :
    c.Sound space := by
  induction built with
  | intro lit member inner made ih =>
      obtain ⟨value, accepted, made⟩ := bind_eq_ok made
      cases made
      exact ⟨member, .of_check member ih accepted⟩

namespace Ty

variable {t : Ty} {lit : Literal} {v : Value}

/-- What a check accepts becomes a value of the type. -/
theorem inhabits_of_accepted (space : TypeSpace) (member : space.mem t) (built : lit.Built space)
    (accepted : t.check lit = .ok v) : t.Inhabits v :=
  .of_check member (fun c inside => (built c inside).sound) accepted

/-- Two zeros are one item of a set, two NaNs are two. -/
theorem inhabits_of_accepted_zeros :
    let t := Ty.set 0 (.prim .double)
    let zero : Constant := ⟨none, "ZERO", .prim .double, .double ⟨0⟩, none⟩
    let nan : Double := ⟨0x7ff8000000000000⟩
    let lit := Literal.list [.const zero, .double ⟨0x8000000000000000⟩, .double nan, .double nan]
    t.check lit = .ok (.set [.double ⟨0⟩, .double nan, .double nan]) ∧
      t.Inhabits (.set [.double ⟨0⟩, .double nan, .double nan]) := by
  intro t zero nan lit
  have double : ModelSet.empty.Holds (.prim .double) := rfl
  obtain ⟨progress, held⟩ := Container.request_progress (c := .set (.prim .double))
    (D := fun _ => False) ModelSet.WellFormed.empty (by simpa using double)
  let space := progress.wellFormed.space
  have built : lit.Built space := by
    intro c inside
    cases List.mem_singleton.mp inside
    exact .intro (.double ⟨0⟩) (.inl (progress.holds double)) nofun rfl
  have accepted : t.check lit = .ok (.set [.double ⟨0⟩, .double nan, .double nan]) := by
    unfold t lit zero nan
    rfl
  exact ⟨accepted, inhabits_of_accepted space (.inl held) built accepted⟩

/-- A value that came out of a check is accepted again as it is. So nothing is lost when a constant
of the type itself is not checked again. -/
theorem check_ofValue_of_accepted (space : TypeSpace) (member : space.mem t)
    (built : lit.Built space) :
    (∀ v, t.check lit = .ok v → t.check (Literal.ofValue v) = .ok v) ∧
      ∀ c, lit = .const c → c.type.same t = true →
        t.check lit = .ok c.value ∧ t.check (Literal.ofValue c.value) = .ok c.value := by
  have again : ∀ v, t.check lit = .ok v → t.check (Literal.ofValue v) = .ok v := by
    intro v accepted
    have inhabits : t.Inhabits v :=
      .of_check member (fun c inside => (built c inside).sound) accepted
    exact inhabits.check_ofValue
  refine ⟨again, ?_⟩
  rintro c rfl same
  have taken : t.check (.const c) = .ok c.value := by rw [check_const, if_pos same]
  exact ⟨taken, again c.value taken⟩

/-- A map in which a NaN is a key twice. -/
theorem check_ofValue_of_accepted_nan_keys :
    let t := Ty.map 0 (.prim .double) (.prim (.int .w8))
    let nan : Double := ⟨0x7ff8000000000000⟩
    let table : Constant :=
      ⟨none, "TABLE", t, .map [(.double nan, .int 1), (.double nan, .char 'a')], none⟩
    t.check (.const table) = .ok table.value ∧
      t.check (Literal.ofValue table.value) = .ok table.value := by
  intro t nan table
  have held : ∀ e ∈ [Ty.prim .double, .prim (.int .w8)], ModelSet.empty.Holds e := by
    simp only [List.mem_cons, List.not_mem_nil, or_false]
    rintro e (rfl | rfl) <;> rfl
  obtain ⟨progress, held⟩ := Container.request_progress
    (c := .map (.prim .double) (.prim (.int .w8))) (D := fun _ => False) .empty held
  let space := progress.wellFormed.space
  have member : space.mem t := .inl held
  have built : (Literal.const table).Built space := by
    intro c inside
    cases List.mem_singleton.mp inside
    exact .intro (.map [(.double nan, .int 1), (.double nan, .char 'a')]) member nofun
      (by unfold t nan; rfl)
  exact (check_ofValue_of_accepted space member built).2 table rfl rfl

end Ty

end IdlGen
