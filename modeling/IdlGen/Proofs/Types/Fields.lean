import IdlGen.Proofs.Model.Valid
import IdlGen.Proofs.Types.Places

/-!
# Fields of one owner

No two fields of an owner share an id or a name. The fields are kept three times: in the order in
which they were added, as places of names, and as the ids in use. A field that is refused must leave
all three as they were, or a later field would be refused, or found, by mistake.
-/

namespace IdlGen

namespace FieldSet

variable {τ : Type}

/-- A field has the id. -/
def HasId (s : FieldSet τ) (id : Int) : Prop := ∃ f ∈ s.fields, f.id = id

/-- A field has the name. -/
def HasName (s : FieldSet τ) (name : String) : Prop := ∃ f ∈ s.fields, f.name = name

/-- The fields with one more at the end. -/
def push (s : FieldSet τ) (f : Field τ) : FieldSet τ := { s with fields := s.fields ++ [f] }

variable {s s' : FieldSet τ} {f : Field τ} {error : ModelError}

@[grind =] theorem hasId_iff {id : Int} : s.HasId id ↔ s.fields.any (·.id = id) = true := by
  simp [HasId]

@[grind =]
theorem hasName_iff {name : String} : s.HasName name ↔ s.fields.any (·.name = name) = true := by
  simp [HasName]

@[simp, grind =] theorem hasId_push {id : Int} : (s.push f).HasId id ↔ s.HasId id ∨ f.id = id := by
  simp [HasId, push, or_and_right, exists_or]

theorem add_of_hasId (taken : s.HasId f.id) :
    s.add f = .error (.duplicateFieldId f.id s.owner) :=
  if_pos (hasId_iff.mp taken)

theorem add_of_hasName (new : ¬ s.HasId f.id) (taken : s.HasName f.name) :
    s.add f = .error (.duplicateFieldName f.name s.owner) := by
  rw [add, if_neg (hasId_iff.not.mp new), if_pos (hasName_iff.mp taken)]

theorem add_of_new (newId : ¬ s.HasId f.id) (newName : ¬ s.HasName f.name) :
    s.add f = .ok (s.push f) := by
  rw [add, if_neg (hasId_iff.not.mp newId), if_neg (hasName_iff.not.mp newName), push]

@[simp, grind =] theorem add_eq_ok_iff :
    s.add f = .ok s' ↔ ¬ s.HasId f.id ∧ ¬ s.HasName f.name ∧ s' = s.push f := by
  by_cases hasId : s.HasId f.id
  · simp [add_of_hasId hasId, hasId]
  · by_cases hasName : s.HasName f.name
    · simp [add_of_hasName hasId hasName, hasName]
    · simp [add_of_new hasId hasName, hasId, hasName, eq_comm]

/-- A field is refused if its id is taken, or else if its name is. -/
@[simp, grind =] theorem add_eq_error_iff :
    s.add f = .error error ↔
      s.HasId f.id ∧ error = .duplicateFieldId f.id s.owner ∨
        ¬ s.HasId f.id ∧ s.HasName f.name ∧ error = .duplicateFieldName f.name s.owner := by
  by_cases hasId : s.HasId f.id
  · simp [add_of_hasId hasId, hasId, eq_comm]
  · by_cases hasName : s.HasName f.name
    · simp [add_of_hasName hasId hasName, hasId, hasName, eq_comm]
    · simp [add_of_new hasId hasName, hasId, hasName]

theorem owner_of_add {owner : String} (owned : s.owner = owner) (added : s.add f = .ok s') :
    s'.owner = owner := by
  rw [(add_eq_ok_iff.mp added).2.2, push, owned]

end FieldSet

/-- Fields with what is kept beside them: the place of each name and the ids in use. -/
structure FieldTable (τ : Type) extends FieldSet τ where
  places : List (String × Nat) := []
  ids : List Int := []

namespace FieldTable

variable {τ : Type}

def new (owner : String) : FieldTable τ := { owner := owner }

/-- Adds a field at the end. -/
def insert (f : Field τ) : InPlace (FieldTable τ) Unit := do
  let t ← get
  if f.id ∈ t.ids then throw (.duplicateFieldId f.id t.owner)
  if (t.places.lookup f.name).isSome then throw (.duplicateFieldName f.name t.owner)
  modify fun t => { t with ids := f.id :: t.ids }
  modify fun t => { t with places := (f.name, t.fields.length) :: t.places }
  modify fun t => { t with fields := t.fields ++ [f] }

/-- The field at the place of the name. -/
def field? (t : FieldTable τ) (name : String) : Option (Field τ) :=
  (t.places.lookup name).bind (t.fields[·]?)

/-- Whether the name has a place. -/
def hasField (t : FieldTable τ) (name : String) : Bool := (t.places.lookup name).isSome

/-- The table with one more field. -/
def push (t : FieldTable τ) (f : Field τ) : FieldTable τ where
  toFieldSet := t.toFieldSet.push f
  places := (f.name, t.fields.length) :: t.places
  ids := f.id :: t.ids

/-- What is kept beside the fields agrees with them, and no two of them share an id. -/
structure Agrees (t : FieldTable τ) : Prop where
  places : Locates (·.name) t.fields t.places
  ids : ∀ id, id ∈ t.ids ↔ t.HasId id
  distinct : (t.fields.map (·.id)).Nodup

variable {t : FieldTable τ} {f : Field τ}

@[simp] theorem exec_insert (t : FieldTable τ) (f : Field τ) :
    InPlace.exec (insert f) t =
      if f.id ∈ t.ids then (.error (.duplicateFieldId f.id t.owner), t)
      else if (t.places.lookup f.name).isSome then
        (.error (.duplicateFieldName f.name t.owner), t)
      else (.ok (), t.push f) := by
  rw [insert, InPlace.exec_get_bind]
  by_cases hasId : f.id ∈ t.ids
  · simp only [hasId]
    rfl
  · by_cases hasName : (t.places.lookup f.name).isSome = true
    · simp only [hasId, hasName]
      rfl
    · simp only [hasId, hasName]
      rfl

@[simp] theorem agrees_new (owner : String) : (new owner : FieldTable τ).Agrees where
  places := .nil
  ids := by simp [new, FieldSet.HasId]
  distinct := .nil

theorem Agrees.push (agrees : t.Agrees) (newId : ¬ t.HasId f.id) (newName : ¬ t.HasName f.name) :
    (t.push f).Agrees where
  places := agrees.places.concat newName
  ids id := by
    have follows : (t.push f).HasId id ↔ t.HasId id ∨ f.id = id := FieldSet.hasId_push
    rw [follows, ← agrees.ids, or_comm, eq_comm]
    exact List.mem_cons
  distinct := nodup_map_concat agrees.distinct (FieldSet.hasId_iff.not.mp newId)

/-- The steps that can fail stand before all that change something, and they look at the same ids
and names. -/
theorem insert_refines :
    Refines insert FieldSet.add FieldTable.toFieldSet (Agrees (τ := τ)) where
  error {t f error} agrees refused := by
    rw [exec_insert]
    rcases FieldSet.add_eq_error_iff.mp refused with ⟨taken, rfl⟩ | ⟨new, taken, rfl⟩
    · rw [if_pos ((agrees.ids _).mpr taken)]
    · rw [if_neg ((agrees.ids _).not.mpr new), if_pos (agrees.places.isSome_lookup_iff.mpr taken)]
  ok {t f s} agrees added := by
    obtain ⟨newId, newName, rfl⟩ := FieldSet.add_eq_ok_iff.mp added
    refine ⟨t.push f, ?_, rfl, agrees.push newId newName⟩
    rw [exec_insert, if_neg ((agrees.ids _).not.mpr newId),
      if_neg (agrees.places.isSome_lookup_iff.not.mpr newName)]

theorem Agrees.field?_eq (agrees : t.Agrees) (name : String) :
    t.field? name = t.toFieldSet.field? name :=
  agrees.places.bind_getElem?_eq_find? name

theorem Agrees.hasField_eq (agrees : t.Agrees) (name : String) :
    t.hasField name = t.toFieldSet.hasField name := by
  rw [Bool.eq_iff_iff, hasField, agrees.places.isSome_lookup_iff, FieldSet.hasField,
    FieldSet.field?, List.find?_isSome]
  simp

theorem Agrees.field?_eq_some_iff (agrees : t.Agrees) {name : String} :
    t.field? name = some f ↔ f ∈ t.fields ∧ f.name = name :=
  agrees.places.bind_getElem?_eq_some_iff

theorem Agrees.hasField_iff (agrees : t.Agrees) {name : String} :
    t.hasField name = true ↔ t.HasName name :=
  agrees.places.isSome_lookup_iff

/-- After any additions to an owner without fields, the fields are those that were added, and they
share neither ids nor names. A further one is added exactly if its id and its name are new, and if
both are taken it is refused for its id. Additions in place do the same to the table of the fields,
and leave it as it was if they fail. A name leads to the one field that has it. -/
theorem fields_of_additions (owner : String) (calls : List (Field τ)) :
    let s := addAll FieldSet.add (⟨owner, []⟩ : FieldSet τ) calls
    let t := insertAll insert (new owner) calls
    s.fields = accepted FieldSet.add ⟨owner, []⟩ calls ∧ (s.fields.map (·.id)).Nodup ∧
      (s.fields.map (·.name)).Nodup ∧
      (∀ f s', s.add f = .ok s' ↔ ¬ s.HasId f.id ∧ ¬ s.HasName f.name ∧ s' = s.push f) ∧
      (∀ f error, s.add f = .error error ↔
        s.HasId f.id ∧ error = .duplicateFieldId f.id owner ∨
          ¬ s.HasId f.id ∧ s.HasName f.name ∧ error = .duplicateFieldName f.name owner) ∧
      t.toFieldSet = s ∧ t.Agrees ∧
      (∀ f, (∀ error, s.add f = .error error → InPlace.exec (insert f) t = (.error error, t)) ∧
        ∀ s', s.add f = .ok s' →
          ∃ t', t'.toFieldSet = s' ∧ InPlace.exec (insert f) t = (.ok (), t')) ∧
      ∀ name, t.field? name = s.field? name ∧ t.hasField name = s.hasField name ∧
        (∀ f, s.field? name = some f ↔ f ∈ s.fields ∧ f.name = name) ∧
        (s.hasField name = true ↔ s.HasName name) := by
  intro s t
  have added : s.fields = [] ++ accepted FieldSet.add ⟨owner, []⟩ calls :=
    items_addAll FieldSet.fields_add _ calls
  have owned : s.owner = owner := addAll_induction FieldSet.owner_of_add rfl calls
  obtain ⟨agrees, view⟩ : t.Agrees ∧ t.toFieldSet = s :=
    insert_refines.insertAll (agrees_new owner) calls
  rw [← view] at added owned ⊢
  refine ⟨added, agrees.distinct, agrees.places.nodup, fun f s' => FieldSet.add_eq_ok_iff, ?_, rfl,
    agrees, fun f => ⟨fun error => insert_refines.error agrees, fun s' new => ?_⟩, fun name => ?_⟩
  · rw [← owned]
    exact fun f error => FieldSet.add_eq_error_iff
  · obtain ⟨t', done, same, _⟩ := insert_refines.ok agrees new
    exact ⟨t', same, done⟩
  · rw [← agrees.field?_eq, ← agrees.hasField_eq]
    exact ⟨rfl, rfl, fun f => agrees.field?_eq_some_iff, agrees.hasField_iff⟩

end FieldTable

end IdlGen
