import IdlGen.Proofs.Types.Constants

/-!
# Constants and their values

A constant may stand wherever its value may, with one exception. The items of a list that becomes
binary data are looked at directly, so there a constant is refused even if its value is a byte.
-/

namespace IdlGen

/-- A relation that an item keeps under a change, where a condition is met, a list keeps as well. -/
theorem forall₂_iff_map {α β : Type} {R : α → β → Prop} {p : α → Bool} {f : α → α} {as : List α}
    {bs : List β} (each : ∀ a ∈ as, ∀ b, R a b ↔ p a = true ∧ R (f a) b) :
    List.Forall₂ R as bs ↔ as.all p = true ∧ List.Forall₂ R (as.map f) bs := by
  rw [List.forall₂_map_left_iff, List.all_eq_true, ← List.forall₂_and_left]
  induction as generalizing bs with
  | nil => simp
  | cons a as ih =>
      have rest : ∀ {bs}, List.Forall₂ R as bs ↔ _ :=
        ih fun a member => each a (List.mem_cons_of_mem _ member)
      simp only [List.forall₂_cons_left_iff, each a List.mem_cons_self, rest]

namespace Literal

mutual

/-- The literal with the value of each constant in the place of the constant. -/
def inlined : Literal → Literal
  | .const c => ofValue c.value
  | .list items => .list (inlinedItems items)
  | .map entries => .map (inlinedEntries entries)
  | lit => lit

def inlinedItems : List Literal → List Literal
  | [] => []
  | item :: rest => item.inlined :: inlinedItems rest

def inlinedEntries : List (Literal × Literal) → List (Literal × Literal)
  | [] => []
  | (k, v) :: rest => (k.inlined, v.inlined) :: inlinedEntries rest

end

@[simp] theorem inlined_list (items : List Literal) :
    (list items).inlined = .list (items.map inlined) := by
  rw [inlined]
  congr
  induction items with
  | nil => rfl
  | cons item rest ih => rw [inlinedItems, ih, List.map_cons]

@[simp] theorem inlined_map (entries : List (Literal × Literal)) :
    (map entries).inlined = .map (entries.map fun e => (e.1.inlined, e.2.inlined)) := by
  rw [inlined]
  congr
  induction entries with
  | nil => rfl
  | cons e rest ih => rw [inlinedEntries, ih, List.map_cons]

theorem isProper_inlined {lit : Literal} (proper : lit.isProper = true) :
    lit.inlined.isProper = true := by
  cases lit with
  | null | const => cases proper
  | _ => rfl

/-- Whether the literal is a constant. -/
def isConst : Literal → Bool
  | .const _ => true
  | _ => false

/-- An item gives the same byte before and after, but a constant gives none. -/
theorem byte?_eq (item : Literal) :
    item.byte? = if item.isConst then none else item.inlined.byte? := by
  cases item <;> rfl

theorem mapM_byte?_eq (items : List Literal) :
    items.mapM byte? =
      if items.all (!·.isConst) then (items.map inlined).mapM byte? else none := by
  induction items with
  | nil => rfl
  | cons item rest ih =>
      rw [List.mapM_cons, ih, byte?_eq, List.all_cons]
      cases item.isConst <;> cases rest.all (!·.isConst) <;> simp

end Literal

namespace Ty

/-- Whether no constant stands among the items of a list that is to become binary data. -/
def spellsBytes : Ty → Literal → Bool
  | .prim .binary, .list items => items.all (!·.isConst)
  | .list _ e, .list items => items.all fun item => e.spellsBytes item
  | .set _ e, .list items => items.all fun item => e.spellsBytes item
  | .map _ key value, .map entries =>
    entries.all fun entry => key.spellsBytes entry.1 && value.spellsBytes entry.2
  | _, _ => true
termination_by structural t => t

end Ty

@[simp] theorem Primitive.check_binary_list_iff {items : List Literal} {v : Value} :
    binary.check (.list items) = .ok v ↔
      ∃ bytes, items.mapM Literal.byte? = some bytes ∧ v = .binary bytes := by
  unfold check
  dsimp only
  cases items.mapM Literal.byte? <;> simp [eq_comm]

theorem Primitive.check_iff_inlined {p : Primitive} {lit : Literal} {v : Value}
    (proper : lit.isProper = true) :
    p.check lit = .ok v ↔ (Ty.prim p).spellsBytes lit = true ∧ p.check lit.inlined = .ok v := by
  cases lit with
  | null | const => cases proper
  | list items =>
      rw [Literal.inlined_list]
      cases p with
      | binary =>
          rw [check_binary_list_iff, check_binary_list_iff, Literal.mapM_byte?_eq items]
          change _ ↔ items.all (!·.isConst) = true ∧ _
          cases items.all (!·.isConst) <;> simp
      | _ => simp [check]
  | map entries => cases p <;> simp [check]
  | _ => cases p <;> simp [Literal.inlined, Ty.spellsBytes]

namespace Ty

/-- In a check against `t` a constant that holds a value of its type stands for this value, save
among the items of binary data. -/
def Transparent (space : TypeSpace) (t : Ty) : Prop :=
  ∀ lit v, (∀ c ∈ lit.constants, c.Sound space) →
    (t.check lit = .ok v ↔ t.spellsBytes lit = true ∧ t.check lit.inlined = .ok v)

namespace Transparent

variable {space : TypeSpace} {t e key value : Ty} {n : Nat}

/-- `null` and constants are treated alike for all types. -/
theorem of_proper (member : space.mem t)
    (proper : ∀ lit v, lit.isProper = true → (∀ c ∈ lit.constants, c.Sound space) →
      (t.check lit = .ok v ↔ t.spellsBytes lit = true ∧ t.check lit.inlined = .ok v)) :
    t.Transparent space := by
  intro lit v sound
  have spelled : lit.isProper = false → t.spellsBytes lit = true := by
    intro improper
    cases lit with
    | null | const => cases t <;> simp [spellsBytes]
    | _ => cases improper
  cases lit with
  | null => exact (and_iff_right (spelled rfl)).symm
  | const c =>
      have same : t.check (.const c) = t.check (Literal.ofValue c.value) := by
        obtain ⟨inSpace, inhabits⟩ := sound c (List.mem_singleton_self c)
        rw [check_const]
        split
        · rename_i same
          obtain rfl : c.type = t := space.identity inSpace member same
          exact inhabits.check_ofValue.symm
        · rfl
      rw [same]
      exact (and_iff_right (spelled rfl)).symm
  | _ => exact proper _ _ rfl sound

theorem items_iff {items : List Literal} {values : List Value} (each : e.Transparent space)
    (sound : ∀ c ∈ (Literal.list items).constants, c.Sound space) :
    List.Forall₂ (fun item w => e.check item = .ok w) items values ↔
      items.all e.spellsBytes = true ∧
        List.Forall₂ (fun item w => e.check item = .ok w) (items.map Literal.inlined) values :=
  forall₂_iff_map fun item inItems w => each item w fun c inItem =>
    sound c (Literal.mem_constants_list inItems inItem)

theorem entries_iff {entries : List (Literal × Literal)} {pairs : List (Value × Value)}
    (ofKey : key.Transparent space) (ofValue : value.Transparent space)
    (sound : ∀ c ∈ (Literal.map entries).constants, c.Sound space) :
    List.Forall₂ (fun entry pair =>
        key.check entry.1 = .ok pair.1 ∧ value.check entry.2 = .ok pair.2) entries pairs ↔
      (entries.all fun entry => key.spellsBytes entry.1 && value.spellsBytes entry.2) = true ∧
        List.Forall₂ (fun entry pair =>
          key.check entry.1 = .ok pair.1 ∧ value.check entry.2 = .ok pair.2)
          (entries.map fun entry => (entry.1.inlined, entry.2.inlined)) pairs := by
  refine forall₂_iff_map fun entry inEntries pair => ?_
  have first := ofKey entry.1 pair.1 fun c inKey =>
    sound c (Literal.mem_constants_map inEntries (List.mem_append_left _ inKey))
  have second := ofValue entry.2 pair.2 fun c inValue =>
    sound c (Literal.mem_constants_map inEntries (List.mem_append_right _ inValue))
  rw [first, second, Bool.and_eq_true, and_and_and_comm]

/-- Lists and sets are checked item by item. -/
theorem of_items {wrap : List Value → Value} (member : space.mem t) (each : e.Transparent space)
    (checks : ∀ {lit v}, lit.isProper = true → (t.check lit = .ok v ↔
      ∃ items values, lit = .list items ∧ v = wrap values ∧
        List.Forall₂ (fun item value => e.check item = .ok value) items values))
    (spells : ∀ items, t.spellsBytes (.list items) = items.all e.spellsBytes) :
    t.Transparent space := by
  refine of_proper member fun lit v proper sound => ?_
  rw [checks proper, checks (Literal.isProper_inlined proper)]
  cases lit with
  | list items =>
      rw [Literal.inlined_list, spells]
      constructor
      · rintro ⟨_, values, ⟨⟩, rfl, checked⟩
        obtain ⟨spelled, checked⟩ := (items_iff each sound).mp checked
        exact ⟨spelled, _, values, rfl, rfl, checked⟩
      · rintro ⟨spelled, _, values, ⟨⟩, rfl, checked⟩
        exact ⟨_, values, rfl, rfl, (items_iff each sound).mpr ⟨spelled, checked⟩⟩
  | const => cases proper
  | _ => simp [Literal.inlined]

theorem list (member : space.mem (.list n e)) (each : e.Transparent space) :
    (Ty.list n e).Transparent space :=
  of_items member each check_list_iff fun _ => rfl

theorem set (member : space.mem (.set n e)) (each : e.Transparent space) :
    (Ty.set n e).Transparent space :=
  of_items member each check_set_iff fun _ => rfl

theorem map (member : space.mem (.map n key value)) (ofKey : key.Transparent space)
    (ofValue : value.Transparent space) : (Ty.map n key value).Transparent space := by
  refine of_proper member fun lit v proper sound => ?_
  rw [check_map_iff proper, check_map_iff (Literal.isProper_inlined proper)]
  cases lit with
  | map entries =>
      rw [Literal.inlined_map]
      constructor
      · rintro ⟨_, pairs, ⟨⟩, rfl, checked⟩
        obtain ⟨spelled, checked⟩ := (entries_iff ofKey ofValue sound).mp checked
        exact ⟨spelled, _, pairs, rfl, rfl, checked⟩
      · rintro ⟨spelled, _, pairs, ⟨⟩, rfl, checked⟩
        exact ⟨_, pairs, rfl, rfl, (entries_iff ofKey ofValue sound).mpr ⟨spelled, checked⟩⟩
  | const => cases proper
  | _ => simp [Literal.inlined]

/-- Constants are transparent to all types, by induction on what they are made of. -/
theorem of_mem (member : space.mem t) : t.Transparent space := by
  induction t using Ty.parts.induct with
  | case1 n e ih => exact .list member (ih (space.elements member (by simp [elements])))
  | case2 n e ih => exact .set member (ih (space.elements member (by simp [elements])))
  | case3 n key value ihKey ihValue =>
      exact .map member (ihKey (space.elements member (by simp [elements])))
        (ihValue (space.elements member (by simp [elements])))
  | case4 t notList notSet notMap =>
      refine of_proper member fun lit v proper sound => ?_
      have properAfter := Literal.isProper_inlined proper
      cases t with
      | prim p =>
          rw [check_prim proper, check_prim properAfter]
          exact Primitive.check_iff_inlined proper
      | enum stamp model name body =>
          rw [check_enum_iff proper, check_enum_iff properAfter]
          cases lit with
          | const => cases proper
          | _ => simp [Literal.inlined, spellsBytes]
      | record => simp [check_record_ne_ok proper, check_record_ne_ok properAfter]
      | list n e => exact absurd rfl (notList n e)
      | set n e => exact absurd rfl (notSet n e)
      | map n key value => exact absurd rfl (notMap n key value)

end Transparent

/-- A literal is accepted exactly if it is accepted with its constants replaced by their values and
spells its bytes, and it gives the same value then. -/
theorem check_iff_check_inlined (space : TypeSpace) {t : Ty} (member : space.mem t) {lit : Literal}
    (built : lit.Built space) (v : Value) :
    t.check lit = .ok v ↔ t.spellsBytes lit = true ∧ t.check lit.inlined = .ok v :=
  Transparent.of_mem member lit v fun c inside => (built c inside).sound

/-- A byte that is given by a constant is accepted in a list of bytes, but not in binary data. -/
theorem constant_refused_in_binary :
    let one : Constant := ⟨some "m", "ONE", .prim (.int .w8), .int 1, none⟩
    let lit := Literal.list [.const one]
    (Ty.list 0 (.prim (.int .w8))).check lit = .ok (.list [.int 1]) ∧
      (prim .binary).check lit.inlined = .ok (.binary [1]) ∧
      ∀ v, (prim .binary).check lit ≠ .ok v := by
  intro one lit
  let space := ModelSet.WellFormed.empty.space
  have member : ∀ p ∈ Primitive.nameable, space.mem (prim p) := fun p nameable =>
    .inl (ModelSet.WellFormed.empty.primitive p nameable)
  have built : lit.Built space := by
    intro c inside
    cases List.mem_singleton.mp inside
    exact .intro (.int 1) (member (.int .w8) (by decide)) nofun rfl
  refine ⟨rfl, rfl, fun v accepted => ?_⟩
  obtain ⟨spelled, _⟩ :=
    (check_iff_check_inlined space (member .binary (by decide)) built v).mp accepted
  cases spelled

end Ty

end IdlGen
