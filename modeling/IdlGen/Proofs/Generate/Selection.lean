import IdlGen.Proofs.Generate.Cascade

/-!
# Which entries a plan has

The entries of a plan are told apart by their places: the name of a target and a position in its
list of generators. The places are said here without the functions that compute them, by which of
them there are and by which stands before which, and that leaves one list only.
-/

namespace IdlGen

/-- Whether the value is a section. -/
def Tree.isObject : Tree → Bool
  | object _ => true
  | _ => false

/-- The value has an item at a position. A value that is neither a list nor null counts as a list of
one. -/
inductive Tree.Item : Tree → Nat → Tree → Prop
  | listed {xs : List Tree} {i : Nat} {x : Tree} (there : xs[i]? = some x) : Item (list xs) i x
  | alone {x : Tree} (present : x ≠ null) (single : ∀ xs, x ≠ list xs) : Item x 0 x

namespace Section

variable {s : Section} {key : String} {x : Tree}

@[simp] theorem getElem?_items_iff {i : Nat} :
    (s.items key)[i]? = some x ↔ ∃ value, s.get? key = some value ∧ value.Item i x := by
  cases read : s.get? key with
  | none => simp [items, read]
  | some value =>
      have lone (present : value ≠ .null) (single : ∀ xs, value ≠ .list xs) :
          [value][i]? = some x ↔ value.Item i x := by
        constructor
        · intro there
          obtain ⟨rfl, rfl⟩ : i = 0 ∧ value = x := by simpa [List.getElem?_singleton] using there
          exact .alone present single
        · intro item
          cases item with
          | listed => exact absurd rfl (single _)
          | alone => rfl
      simp only [Option.some.injEq, exists_eq_left']
      cases value with
      | null =>
          simp only [items, read, List.getElem?_nil, reduceCtorEq, false_iff]
          intro item
          cases item with
          | alone present => exact present rfl
      | list xs =>
          simp only [items, read]
          constructor
          · exact .listed
          · intro item
            cases item with
            | listed there => exact there
            | alone _ single => exact absurd rfl (single xs)
      | bool | int | double | str | object =>
          simp only [items, read]
          exact lone (by simp) (by simp)

@[simp]
theorem mem_items_iff : x ∈ s.items key ↔ ∃ value i, s.get? key = some value ∧ value.Item i x := by
  rw [List.mem_iff_getElem?]
  simp only [getElem?_items_iff]
  exact exists_comm

@[simp] theorem items_eq_nil_iff :
    s.items key = [] ↔
      s.get? key = none ∨ s.get? key = some .null ∨ s.get? key = some (.list []) := by
  unfold items
  cases s.get? key with
  | none => simp
  | some value => cases value <;> simp

end Section

/-- Where the entry stands in its spec. -/
def Entry.place (e : Entry) : String × Nat := (e.target, e.index)

namespace Plan

/-- The targets that are asked for, by the process or else by the spec. -/
def requested? (p : Plan) : Option Tree :=
  (p.options.get? "target").or (((p.spec.sub "global").sub "options").get? "target")

/-- The target is asked for, by its name or among all others. -/
def Selects (p : Plan) (target : String) : Prop :=
  p.requested? = none ∨ p.requested? = some .null ∨ p.requested? = some (.list []) ∨
    ∃ value i, p.requested? = some value ∧
      (value.Item i (.str "all") ∨ value.Item i (.str target))

/-- The spec has a section for the target, which has a section at that position of its list. -/
def Lists (p : Plan) (target : String) (index : Nat) : Prop :=
  ∃ members generators config, (p.spec.sub "targets").get? target = some (.object members) ∧
    Section.get? members "generators" = some generators ∧ generators.Item index (.object config)

/-- The one place comes before the other: its target is declared before, or else it is in the same
list at an earlier position. -/
def Before (p : Plan) (a b : String × Nat) : Prop :=
  [a.1, b.1].Sublist ((p.spec.sub "targets").map Prod.fst) ∨ a.1 = b.1 ∧ a.2 < b.2

variable {p : Plan}

@[simp] theorem isText_iff {text : String} {x : Tree} : isText text x = true ↔ x = .str text := by
  cases x <;> simp [isText]

theorem any_isText_iff {text : String} {xs : List Tree} :
    xs.any (isText text) = true ↔ .str text ∈ xs := by
  simp

theorem selects_iff (keyed : p.Keyed) {target : String} :
    p.selects target = true ↔ p.Selects target := by
  have read : p.globalOptions.get? "target" = p.requested? :=
    Section.get?_overlay keyed.options.nodup
  simp only [selects, Bool.or_eq_true, List.isEmpty_iff, Section.items_eq_nil_iff, any_isText_iff,
    Section.mem_items_iff, read, Selects, or_assoc, ← exists_or, ← and_or_left]

/-- The entries of a target. -/
def targetEntries (p : Plan) (target : String × Tree) : List Entry :=
  (p.targetSteps target.1 target.2).filterMap Sum.getRight?

theorem entries_eq (p : Plan) :
    p.entries = ((p.spec.sub "targets").filter (p.selects ·.1)).flatMap p.targetEntries := by
  unfold entries steps targetEntries
  rw [List.filterMap_flatMap]
  refine List.flatMap_congr fun target _ => List.filterMap_congr fun step _ => ?_
  cases step <;> rfl

/-- The places of a target are the positions of sections in its list, in order. -/
theorem places_targetEntries (name : String) (members : Section) :
    (p.targetEntries (name, .object members)).map Entry.place =
      (members.items "generators").zipIdx.filterMap fun item =>
        if item.1.isObject then some (name, item.2) else none := by
  unfold targetEntries targetSteps
  rw [List.filterMap_map, List.map_filterMap]
  refine List.filterMap_congr fun item _ => ?_
  obtain ⟨tree, index⟩ := item
  cases tree <;> rfl

theorem mem_places_targetEntries {target : String × Tree} {place : String × Nat} :
    place ∈ (p.targetEntries target).map Entry.place ↔
      place.1 = target.1 ∧ ∃ members generators config, target.2 = .object members ∧
        Section.get? members "generators" = some generators ∧
        generators.Item place.2 (.object config) := by
  obtain ⟨name, tree⟩ := target
  cases tree with
  | object members =>
      rw [places_targetEntries, List.mem_filterMap]
      constructor
      · rintro ⟨⟨tree, index⟩, there, made⟩
        cases tree with
        | object config =>
            cases made
            obtain ⟨generators, read, item⟩ :=
              Section.getElem?_items_iff.mp (List.mem_zipIdx_iff_getElem?.mp there)
            exact ⟨rfl, members, generators, config, rfl, read, item⟩
        | null | bool | int | double | str | list => cases made
      · rintro ⟨same, _, generators, config, isSection, read, item⟩
        cases isSection
        have there := Section.getElem?_items_iff.mpr ⟨generators, read, item⟩
        refine ⟨(.object config, place.2), List.mem_zipIdx_iff_getElem?.mpr there, ?_⟩
        exact congrArg some (Prod.ext same.symm rfl)
  | null | bool | int | double | str | list =>
      constructor
      · exact fun member => absurd member List.not_mem_nil
      · rintro ⟨_, _, _, _, isSection, _⟩
        cases isSection

theorem pairwise_places_targetEntries (target : String × Tree) :
    ((p.targetEntries target).map Entry.place).Pairwise fun a b => a.1 = b.1 ∧ a.2 < b.2 := by
  obtain ⟨name, tree⟩ := target
  cases tree with
  | object members =>
      have ordered (xs : List Tree) : xs.zipIdx.Pairwise fun a b => a.2 < b.2 := by
        rw [← List.pairwise_map, List.zipIdx_map_snd]
        exact List.pairwise_lt_range' 1
      rw [places_targetEntries]
      refine (ordered _).filterMap _ fun a b before x first y second => ?_
      obtain ⟨_, first⟩ := Option.ite_none_right_eq_some.mp first
      obtain ⟨_, second⟩ := Option.ite_none_right_eq_some.mp second
      cases first
      cases second
      exact ⟨rfl, before⟩
  | null | bool | int | double | str | list => exact .nil

theorem mem_places_iff (keyed : p.Keyed) {target : String} {index : Nat} :
    (target, index) ∈ p.entries.map Entry.place ↔ p.Selects target ∧ p.Lists target index := by
  rw [entries_eq, List.map_flatMap, List.mem_flatMap]
  constructor
  · rintro ⟨⟨name, tree⟩, declared, listed⟩
    obtain ⟨declared, selected⟩ := List.mem_filter.mp declared
    obtain ⟨rfl, members, generators, config, rfl, read, item⟩ := mem_places_targetEntries.mp listed
    have found := Section.get?_of_mem (keyed.spec.sub "targets").nodup declared
    exact ⟨(selects_iff keyed).mp selected, members, generators, config, found, read, item⟩
  · rintro ⟨selected, members, generators, config, found, read, item⟩
    refine ⟨(target, .object members), List.mem_filter.mpr ⟨Section.mem_of_get? found, ?_⟩, ?_⟩
    · exact (selects_iff keyed).mpr selected
    · exact mem_places_targetEntries.mpr ⟨rfl, members, generators, config, rfl, read, item⟩

/-- Places come in the order of the targets and, for each target, in that of its list. -/
theorem pairwise_places (p : Plan) : (p.entries.map Entry.place).Pairwise p.Before := by
  rw [entries_eq, List.map_flatMap, List.pairwise_flatMap]
  constructor
  · intro target _
    exact (pairwise_places_targetEntries target).imp .inr
  · have declared : (p.spec.sub "targets").Pairwise fun a b =>
        [a.1, b.1].Sublist ((p.spec.sub "targets").map Prod.fst) :=
      List.pairwise_iff_forall_sublist.mpr fun pair => pair.map Prod.fst
    refine (declared.filter _).imp fun before x first y second => .inl ?_
    rwa [(mem_places_targetEntries.mp first).1, (mem_places_targetEntries.mp second).1]

theorem Before.ne (keyed : p.Keyed) {a b : String × Nat} (before : p.Before a b) : a ≠ b := by
  rintro rfl
  rcases before with declared | ⟨_, earlier⟩
  · exact List.nodup_iff_sublist.mp (keyed.spec.sub "targets").nodup a.1 declared
  · exact Nat.lt_irrefl _ earlier

/-- The entries of a plan are at those places that hold a section in the list of a target that is
asked for, each once, in the order in which the spec has them. -/
theorem resolve_selects (keyed : p.Keyed) (w : World) :
    ∃ entries, (p.resolve w).1 = .ok entries ∧
      (∀ target index, (target, index) ∈ entries.map Entry.place ↔
        p.Selects target ∧ p.Lists target index) ∧
      (entries.map Entry.place).Pairwise p.Before ∧ (entries.map Entry.place).Nodup := by
  refine ⟨p.entries, congrArg Prod.fst (p.resolve_eq w), ?_, p.pairwise_places, ?_⟩
  · exact fun target index => mem_places_iff keyed
  · exact p.pairwise_places.imp (Before.ne keyed)

/-- Two of four targets are asked for, one of them with a list in which only every other item is a
section. The process asks for less than the spec does. -/
def gappy : Plan where
  options := [("target", .list [.str "rust", .str "go"])]
  spec :=
    [("global", .object [("options", .object [("target", .str "all")])]),
     ("targets", .object
      [("java", .object [("generators", .list [.object []])]),
       ("go", .object [("generators", .list [.null, .object [], .str "text", .object []])]),
       ("c", .str "text"),
       ("rust", .object [("generators", .object [])])])]

/-- Items that are no sections leave gaps, and the order is that of the spec. -/
theorem gappy_selects :
    gappy.Keyed ∧ ∃ entries, (gappy.resolve ⟨.empty [], []⟩).1 = .ok entries ∧
      entries.map Entry.place = [("go", 1), ("go", 3), ("rust", 0)] ∧
      (gappy.Selects "go" ∧ gappy.Lists "go" 3) ∧ ¬ (gappy.Selects "go" ∧ gappy.Lists "go" 2) ∧
      ¬ (gappy.Selects "java" ∧ gappy.Lists "java" 0) := by
  have keyed : gappy.Keyed := ⟨by decide, by decide⟩
  obtain ⟨entries, resolved, listed, _⟩ := resolve_selects keyed ⟨.empty [], []⟩
  have places : entries.map Entry.place = [("go", 1), ("go", 3), ("rust", 0)] := by
    rw [resolve_eq] at resolved
    cases resolved
    rfl
  refine ⟨keyed, entries, resolved, places, ?_⟩
  rw [← listed, ← listed, ← listed, places]
  decide

end Plan

end IdlGen
