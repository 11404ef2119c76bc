import IdlGen.Proofs.Model.Valid
import IdlGen.Proofs.Types.Places
import Mathlib.Order.Bounds.Basic

/-!
# The numbering of elements

An element has an id of its own or takes the next one. Ids may come in any order and may be
negative, and calls that fail may stand between those that succeed. All the while the next id is the
least number that is neither negative nor at or below an id in use. So it is free, and it is out of
range exactly if the last id of all is in use.

To look up names and ids, a builder keeps a place for each name and the ids in use beside the
elements. A call changes all of these in place, step by step. That they stay in agreement is an
invariant of the calls, and that a call changes nothing when it fails is a fact about the order of
its steps.
-/

namespace IdlGen

namespace EnumBuilder

/-- An element has the name. -/
def HasName (b : EnumBuilder) (name : String) : Prop := ∃ e ∈ b.elements, e.name = name

/-- An element has the id. -/
def HasId (b : EnumBuilder) (id : Int) : Prop := ∃ e ∈ b.elements, e.value = id

/-- The builder with one more element. -/
def push (b : EnumBuilder) (name : String) (id : Int) : EnumBuilder :=
  { b with
    elements := b.elements ++ [⟨b.id, b.qname, name, id⟩]
    nextId := max b.nextId (id + 1) }

variable {b b' : EnumBuilder} {name : String} {id : Int} {error : ModelError}

@[grind =] theorem hasName_iff : b.HasName name ↔ b.elements.any (·.name = name) = true := by
  simp [HasName]

@[grind =] theorem hasId_iff : b.HasId id ↔ b.elements.any (·.value = id) = true := by
  simp [HasId]

@[simp, grind =] theorem hasId_push {n : Int} : (b.push name id).HasId n ↔ b.HasId n ∨ id = n := by
  simp [HasId, push, or_and_right, exists_or]

/-- The next id only moves for an id that has reached it. -/
theorem push_eq (b : EnumBuilder) (name : String) (id : Int) :
    b.push name id =
      { b with
        elements := b.elements ++ [⟨b.id, b.qname, name, id⟩]
        nextId := if b.nextId ≤ id then id + 1 else b.nextId } := by
  have next : max b.nextId (id + 1) = if b.nextId ≤ id then id + 1 else b.nextId := by
    split <;> omega
  rw [push, next]

theorem addWithId_of_hasName (taken : b.HasName name) :
    b.addWithId name id = .error (.duplicateElementName name b.qname) :=
  if_pos (hasName_iff.mp taken)

theorem addWithId_of_hasId (new : ¬ b.HasName name) (taken : b.HasId id) :
    b.addWithId name id = .error (.duplicateElementId id b.qname) := by
  rw [addWithId, if_neg (hasName_iff.not.mp new), if_pos (hasId_iff.mp taken)]

theorem addWithId_of_new (newName : ¬ b.HasName name) (newId : ¬ b.HasId id) :
    b.addWithId name id = .ok (b.push name id) := by
  rw [addWithId, if_neg (hasName_iff.not.mp newName), if_neg (hasId_iff.not.mp newId), push_eq]

@[simp, grind =] theorem addWithId_eq_ok_iff :
    b.addWithId name id = .ok b' ↔ ¬ b.HasName name ∧ ¬ b.HasId id ∧ b' = b.push name id := by
  by_cases hasName : b.HasName name
  · simp [addWithId_of_hasName hasName, hasName]
  · by_cases hasId : b.HasId id
    · simp [addWithId_of_hasId hasName hasId, hasId]
    · simp [addWithId_of_new hasName hasId, hasName, hasId, eq_comm]

/-- An element is refused if its name is taken, or else if its id is. -/
@[simp, grind =] theorem addWithId_eq_error_iff :
    b.addWithId name id = .error error ↔
      b.HasName name ∧ error = .duplicateElementName name b.qname ∨
        ¬ b.HasName name ∧ b.HasId id ∧ error = .duplicateElementId id b.qname := by
  by_cases hasName : b.HasName name
  · simp [addWithId_of_hasName hasName, hasName, eq_comm]
  · by_cases hasId : b.HasId id
    · simp [addWithId_of_hasId hasName hasId, hasName, hasId, eq_comm]
    · simp [addWithId_of_new hasName hasId, hasName, hasId]

/-- No two elements share a name or an id, all ids have 32 bits, and the next id is the greatest of
zero and the numbers that follow an id. -/
structure Numbered (b : EnumBuilder) : Prop where
  names : (b.elements.map (·.name)).Nodup
  ids : (b.elements.map (·.value)).Nodup
  fits : ∀ e ∈ b.elements, IntWidth.w32.holds e.value = true
  next : IsGreatest {n | n = 0 ∨ b.HasId (n - 1)} b.nextId

namespace Numbered

@[simp] theorem new (id : Nat) (qname : String) (docs : Docs) :
    (EnumBuilder.new id qname docs).Numbered where
  names := .nil
  ids := .nil
  fits := by simp [EnumBuilder.new]
  next := by
    refine ⟨.inl rfl, ?_⟩
    rintro n (rfl | ⟨e, member, _⟩)
    · exact le_rfl
    · cases member

theorem push (numbered : b.Numbered) (newName : ¬ b.HasName name) (newId : ¬ b.HasId id)
    (fits : IntWidth.w32.holds id = true) : (b.push name id).Numbered where
  names := nodup_map_concat numbered.names (hasName_iff.not.mp newName)
  ids := nodup_map_concat numbered.ids (hasId_iff.not.mp newId)
  fits := forall_mem_concat numbered.fits fits
  next := by
    -- One number more follows an id.
    have more : {n | n = 0 ∨ (b.push name id).HasId (n - 1)} =
        insert (id + 1) {n | n = 0 ∨ b.HasId (n - 1)} := by
      ext n
      have follows : id = n - 1 ↔ n = id + 1 := by omega
      simp only [Set.mem_ofPred_eq, Set.mem_insert_iff, hasId_push, follows]
      tauto
    rw [more, EnumBuilder.push, max_comm]
    exact numbered.next.insert (id + 1)

theorem lt_nextId (numbered : b.Numbered) (taken : b.HasId id) : id < b.nextId := by
  have follows : id + 1 ∈ {n | n = 0 ∨ b.HasId (n - 1)} := .inr (by simpa using taken)
  exact Int.lt_of_add_one_le (numbered.next.2 follows)

theorem nextId_nonneg (numbered : b.Numbered) : 0 ≤ b.nextId := numbered.next.2 (.inl rfl)

/-- The next id is one past the range at most. -/
theorem nextId_le (numbered : b.Numbered) : b.nextId ≤ IntWidth.w32.max + 1 := by
  rcases numbered.next.1 with zero | ⟨e, member, last⟩
  · rw [zero]
    decide
  · have fits := numbered.fits e member
    simp only [IntWidth.holds, Bool.and_eq_true, decide_eq_true_eq] at fits
    omega

/-- The next id is in the range unless the last number of the range is in use. -/
theorem holds_nextId_iff (numbered : b.Numbered) :
    IntWidth.w32.holds b.nextId = true ↔ ¬ b.HasId IntWidth.w32.max := by
  have low : IntWidth.w32.min ≤ b.nextId := (by decide : IntWidth.w32.min ≤ 0).trans
    numbered.nextId_nonneg
  have held : IntWidth.w32.holds b.nextId = true ↔ b.nextId ≤ IntWidth.w32.max := by
    simp [IntWidth.holds, low]
  rw [held]
  constructor
  · intro high taken
    exact (numbered.lt_nextId taken).not_ge high
  · intro free
    rcases numbered.next.1 with zero | last
    · rw [zero]
      decide
    · have : b.nextId ≠ IntWidth.w32.max + 1 := fun same => free (by simpa [same] using last)
      have := numbered.nextId_le
      omega

theorem not_hasId_nextId (numbered : b.Numbered) : ¬ b.HasId b.nextId := fun taken =>
  (numbered.lt_nextId taken).false

/-- An element without an id is refused if no id is left, or else if its name is taken. -/
theorem add_eq_error_iff (numbered : b.Numbered) :
    b.add name = .error error ↔
      b.HasId IntWidth.w32.max ∧ error = .elementIdsExhausted b.qname ∨
        ¬ b.HasId IntWidth.w32.max ∧ b.HasName name ∧
          error = .duplicateElementName name b.qname := by
  rw [add]
  by_cases last : b.HasId IntWidth.w32.max
  · simp [numbered.holds_nextId_iff, last, eq_comm]
  · simp [numbered.holds_nextId_iff, last, numbered.not_hasId_nextId]

theorem add_eq_ok_iff (numbered : b.Numbered) :
    b.add name = .ok b' ↔
      ¬ b.HasId IntWidth.w32.max ∧ ¬ b.HasName name ∧ b' = b.push name b.nextId := by
  rw [add]
  by_cases last : b.HasId IntWidth.w32.max
  · simp [numbered.holds_nextId_iff, last]
  · simp [numbered.holds_nextId_iff, last, numbered.not_hasId_nextId]

/-- The name of an element leads to the element. -/
theorem element?_build_iff (numbered : b.Numbered) {e : EnumElement} :
    b.build.element? name = some e ↔ e ∈ b.build.elements ∧ e.name = name :=
  find?_eq_some_iff_of_nodup numbered.names

end Numbered

end EnumBuilder

/-- A builder with what it keeps beside its elements: the place of each name and the ids in use. -/
structure Register extends EnumBuilder where
  places : List (String × Nat) := []
  ids : List Int := []

namespace Register

def new (id : Nat) (qname : String) (docs : Docs) : Register :=
  { EnumBuilder.new id qname docs with }

/-- The register with one more element. -/
def push (r : Register) (name : String) (id : Int) : Register where
  toEnumBuilder := r.toEnumBuilder.push name id
  places := (name, r.elements.length) :: r.places
  ids := id :: r.ids

/-- The element at the place of the name. -/
def element? (r : Register) (name : String) : Option EnumElement :=
  (r.places.lookup name).bind (r.elements[·]?)

/-- A name leads to the place of the element that has it, and the ids are those of the elements. -/
structure Agrees (r : Register) : Prop where
  places : ∀ {name i}, r.places.lookup name = some i ↔
    ∃ e, r.elements[i]? = some e ∧ e.name = name
  ids : ∀ {id}, id ∈ r.ids ↔ r.HasId id

variable {r : Register} {name : String} {id : Int}

namespace Agrees

@[simp]
theorem new (id : Nat) (qname : String) (docs : Docs) : (Register.new id qname docs).Agrees where
  places := by simp [Register.new, EnumBuilder.new]
  ids := by simp [Register.new, EnumBuilder.new, EnumBuilder.HasId]

theorem locates (agrees : r.Agrees) : Locates (·.name) r.elements r.places :=
  fun _ _ => agrees.places

theorem isSome_lookup_iff (agrees : r.Agrees) :
    (r.places.lookup name).isSome = true ↔ r.HasName name :=
  agrees.locates.isSome_lookup_iff

theorem push (agrees : r.Agrees) (newName : ¬ r.HasName name) : (r.push name id).Agrees where
  places {n i} := by
    let e : EnumElement := ⟨r.id, r.qname, name, id⟩
    have new : ¬ ∃ e' ∈ r.elements, e'.name = e.name := newName
    exact agrees.locates.concat new n i
  ids {n} := by
    have follows : (r.push name id).HasId n ↔ r.HasId n ∨ id = n := EnumBuilder.hasId_push
    rw [follows, ← agrees.ids, or_comm, eq_comm]
    exact List.mem_cons

/-- The place of a name leads to what a search among the elements finds. -/
theorem element?_eq (agrees : r.Agrees) (numbered : r.Numbered) (name : String) :
    r.element? name = r.build.element? name := by
  refine Option.ext fun e => ?_
  rw [element?, agrees.locates.bind_getElem?_eq_some_iff, numbered.element?_build_iff]
  rfl

end Agrees

end Register

/-- A call that adds an element, under the next id or under an id of 32 bits. -/
inductive ElementCall where
  | next (name : String)
  | withId (name : String) (id : Int) (fits : IntWidth.w32.holds id = true)

/-- Adds an element with the given id in place, and returns it. -/
def Register.insert (name : String) (id : Int) : InPlace Register EnumElement := do
  let r ← get
  if (r.places.lookup name).isSome then throw (.duplicateElementName name r.qname)
  if id ∈ r.ids then throw (.duplicateElementId id r.qname)
  if r.nextId ≤ id then modify fun r => { r with nextId := id + 1 }
  let e : EnumElement := ⟨r.id, r.qname, name, id⟩
  modify fun r => { r with ids := id :: r.ids }
  modify fun r => { r with places := (name, r.elements.length) :: r.places }
  modify fun r => { r with elements := r.elements ++ [e] }
  return e

namespace ElementCall

def name : ElementCall → String
  | next name => name
  | withId name _ _ => name

/-- The id that the call asks for. -/
def id (b : EnumBuilder) : ElementCall → Int
  | next _ => b.nextId
  | withId _ id _ => id

/-- The builder with the element that the call asks for. -/
def add (b : EnumBuilder) : ElementCall → Except ModelError EnumBuilder
  | next name => b.add name
  | withId name id _ => b.addWithId name id

/-- The steps of the call. -/
def perform : ElementCall → InPlace Register EnumElement
  | next name => do
    let r ← get
    unless IntWidth.w32.holds r.nextId do throw (.elementIdsExhausted r.qname)
    Register.insert name r.nextId
  | withId name id _ => Register.insert name id

/-- Makes the call. -/
def exec (r : Register) (call : ElementCall) : Except ModelError EnumElement × Register :=
  call.perform.exec r

variable {r : Register} {b' : EnumBuilder} {call : ElementCall} {error : ModelError}

/-- The steps that can fail stand before all that change something. -/
@[simp] theorem exec_insert (r : Register) (name : String) (id : Int) :
    (Register.insert name id).exec r =
      if (r.places.lookup name).isSome then (.error (.duplicateElementName name r.qname), r)
      else if id ∈ r.ids then (.error (.duplicateElementId id r.qname), r)
      else (.ok ⟨r.id, r.qname, name, id⟩, r.push name id) := by
  rw [Register.insert, InPlace.exec_get_bind]
  by_cases hasName : (r.places.lookup name).isSome = true
  · simp only [hasName]
    rfl
  · by_cases hasId : id ∈ r.ids
    · simp only [hasName, hasId]
      rfl
    · rw [Register.push, EnumBuilder.push_eq]
      by_cases above : r.nextId ≤ id <;> simp only [hasName, hasId, above] <;> rfl

@[simp] theorem exec_next (r : Register) (name : String) :
    (next name).exec r =
      if IntWidth.w32.holds r.nextId then (Register.insert name r.nextId).exec r
      else (.error (.elementIdsExhausted r.qname), r) := by
  rw [exec, perform, InPlace.exec_get_bind]
  by_cases left : IntWidth.w32.holds r.nextId = true <;> simp only [left] <;> rfl

/-- What a call can do to a register and return: nothing and an error, or one more element and this
element. -/
theorem exec_cases (call : ElementCall) (r : Register) :
    (∃ error, call.exec r = (.error error, r)) ∨
      call.exec r = (.ok ⟨r.id, r.qname, call.name, call.id r.toEnumBuilder⟩,
        r.push call.name (call.id r.toEnumBuilder)) := by
  have insert : ∀ name id, (∃ error, (Register.insert name id).exec r = (.error error, r)) ∨
      (Register.insert name id).exec r = (.ok ⟨r.id, r.qname, name, id⟩, r.push name id) := by
    intro name id
    rw [exec_insert]
    split
    · exact .inl ⟨_, rfl⟩
    · split
      · exact .inl ⟨_, rfl⟩
      · exact .inr rfl
  cases call with
  | next name =>
      rw [exec_next]
      split
      · exact insert name r.nextId
      · exact .inl ⟨_, rfl⟩
  | withId name id fits => exact insert name id

theorem add_eq_ok {b b' : EnumBuilder} (added : call.add b = .ok b') :
    IntWidth.w32.holds (call.id b) = true ∧ ¬ b.HasName call.name ∧ ¬ b.HasId (call.id b) ∧
      b' = b.push call.name (call.id b) := by
  cases call with
  | next name =>
      rw [add, EnumBuilder.add] at added
      split at added
      · rename_i left
        exact ⟨left, EnumBuilder.addWithId_eq_ok_iff.mp added⟩
      · cases added
  | withId name id fits => exact ⟨fits, EnumBuilder.addWithId_eq_ok_iff.mp added⟩

end ElementCall

namespace Register

variable {r : Register} {b : EnumBuilder} {name : String} {id : Int} {call : ElementCall}
  {error : ModelError}

theorem Agrees.exec_insert_of_error (agrees : r.Agrees)
    (refused : r.addWithId name id = .error error) :
    (Register.insert name id).exec r = (.error error, r) := by
  rw [ElementCall.exec_insert]
  rcases EnumBuilder.addWithId_eq_error_iff.mp refused with ⟨taken, rfl⟩ | ⟨new, taken, rfl⟩
  · rw [if_pos (agrees.isSome_lookup_iff.mpr taken)]
  · rw [if_neg (agrees.isSome_lookup_iff.not.mpr new), if_pos (agrees.ids.mpr taken)]

/-- A call that fails changes nothing. -/
theorem Agrees.exec_of_error (agrees : r.Agrees)
    (refused : call.add r.toEnumBuilder = .error error) : call.exec r = (.error error, r) := by
  cases call with
  | next name =>
      rw [ElementCall.add, EnumBuilder.add] at refused
      rw [ElementCall.exec_next]
      split at refused
      · rename_i left
        rw [if_pos left]
        exact agrees.exec_insert_of_error refused
      · rename_i gone
        cases refused
        rw [if_neg gone]
  | withId name id fits => exact agrees.exec_insert_of_error refused

/-- A call that succeeds returns the new element. -/
theorem Agrees.exec_of_ok (agrees : r.Agrees) (added : call.add r.toEnumBuilder = .ok b) :
    call.exec r = (.ok ⟨r.id, r.qname, call.name, call.id r.toEnumBuilder⟩,
      r.push call.name (call.id r.toEnumBuilder)) := by
  obtain ⟨fits, newName, newId, _⟩ := ElementCall.add_eq_ok added
  have inserted := ElementCall.exec_insert r call.name (call.id r.toEnumBuilder)
  rw [if_neg (agrees.isSome_lookup_iff.not.mpr newName), if_neg (agrees.ids.not.mpr newId)]
    at inserted
  cases call with
  | next name =>
      rw [ElementCall.exec_next]
      exact (if_pos fits).trans inserted
  | withId => exact inserted

/-- The register after some calls. -/
def after (r : Register) (calls : List ElementCall) : Register :=
  calls.foldl (fun r call => (call.exec r).2) r

/-- The elements that calls return, those that fail left out. -/
def returned (r : Register) : List ElementCall → List EnumElement
  | [] => []
  | call :: rest => (call.exec r).1.toOption.toList ++ (call.exec r).2.returned rest

/-- What calls keep. -/
structure Kept (r : Register) : Prop where
  agrees : r.Agrees
  numbered : r.Numbered

@[simp]
theorem Kept.new (id : Nat) (qname : String) (docs : Docs) : (Register.new id qname docs).Kept :=
  ⟨.new id qname docs, .new id qname docs⟩

theorem Kept.exec (kept : r.Kept) (call : ElementCall) : (call.exec r).2.Kept := by
  cases added : call.add r.toEnumBuilder with
  | error error =>
      rw [kept.agrees.exec_of_error added]
      exact kept
  | ok b =>
      obtain ⟨fits, newName, newId, _⟩ := ElementCall.add_eq_ok added
      rw [kept.agrees.exec_of_ok added]
      exact ⟨kept.agrees.push newName, kept.numbered.push newName newId fits⟩

theorem Kept.after (kept : r.Kept) (calls : List ElementCall) : (r.after calls).Kept := by
  induction calls generalizing r with
  | nil => exact kept
  | cons call rest ih => exact ih (kept.exec call)

@[simp] theorem elements_exec (r : Register) (call : ElementCall) :
    (call.exec r).2.elements = r.elements ++ (call.exec r).1.toOption.toList := by
  rcases call.exec_cases r with ⟨error, refused⟩ | done
  · rw [refused]
    exact (List.append_nil _).symm
  · rw [done]
    rfl

/-- The elements are those that the calls returned, in their order. -/
@[simp] theorem elements_after (r : Register) (calls : List ElementCall) :
    (r.after calls).elements = r.elements ++ r.returned calls := by
  induction calls generalizing r with
  | nil => exact (List.append_nil _).symm
  | cons call rest ih =>
      have step : r.after (call :: rest) = (call.exec r).2.after rest := rfl
      rw [step, ih, elements_exec, List.append_assoc, returned]

/-- After any calls, names and ids are without repetition, what is kept to look them up agrees with
the elements, the elements are those that were returned, and the next id follows the highest one.
A further element without an id is refused if the ids are used up or its name is taken, and gets the
next id otherwise. One with an id is refused if its name or its id is taken. A call does what the
addition says and changes nothing if it fails. Every element is found under its name. -/
theorem numbering_of_calls (id : Nat) (qname : String) (docs : Docs) (calls : List ElementCall) :
    let r := (Register.new id qname docs).after calls
    let b := r.toEnumBuilder
    r.Agrees ∧ b.Numbered ∧ b.nextId ≤ 2147483648 ∧
      b.elements = (Register.new id qname docs).returned calls ∧
      (∀ name error, b.add name = .error error ↔
        b.HasId 2147483647 ∧ error = .elementIdsExhausted b.qname ∨
          ¬ b.HasId 2147483647 ∧ b.HasName name ∧
            error = .duplicateElementName name b.qname) ∧
      (∀ name b', b.add name = .ok b' ↔
        ¬ b.HasId 2147483647 ∧ ¬ b.HasName name ∧ b' = b.push name b.nextId) ∧
      (∀ name i error, b.addWithId name i = .error error ↔
        b.HasName name ∧ error = .duplicateElementName name b.qname ∨
          ¬ b.HasName name ∧ b.HasId i ∧ error = .duplicateElementId i b.qname) ∧
      (∀ call : ElementCall,
        (∀ error, call.add b = .error error → call.exec r = (.error error, r)) ∧
        ∀ b', call.add b = .ok b' → ∃ r', r'.toEnumBuilder = b' ∧
          call.exec r = (.ok ⟨b.id, b.qname, call.name, call.id b⟩, r')) ∧
      ∀ name, r.element? name = b.build.element? name ∧
        ∀ e, r.element? name = some e ↔ e ∈ b.build.elements ∧ e.name = name := by
  intro r b
  obtain ⟨agrees, numbered⟩ : r.Kept := (Kept.new id qname docs).after calls
  refine ⟨agrees, numbered, numbered.nextId_le, elements_after _ calls,
    fun _ _ => numbered.add_eq_error_iff, fun _ _ => numbered.add_eq_ok_iff,
    fun _ _ _ => EnumBuilder.addWithId_eq_error_iff,
    fun _ => ⟨fun _ => agrees.exec_of_error, fun b' added => ?_⟩, fun name => ?_⟩
  · exact ⟨_, (ElementCall.add_eq_ok added).2.2.2.symm, agrees.exec_of_ok added⟩
  · have found := agrees.element?_eq numbered name
    exact ⟨found, fun e => by rw [found]; exact numbered.element?_build_iff⟩

/-- Ids below zero, a name that is refused and the last id of all. After it every name is refused
because no id is left, even one that is taken. -/
theorem numbering_of_calls_to_the_end :
    let calls : List ElementCall :=
      [.withId "low" (-5) rfl, .next "zero", .withId "zero" 7 rfl, .withId "last" 2147483647 rfl]
    let r := (Register.new 0 "m.Level" none).after calls
    r.elements.map (fun e => (e.name, e.value)) =
        [("low", -5), ("zero", 0), ("last", 2147483647)] ∧
      r.nextId = 2147483648 ∧ r.ids = [2147483647, 0, -5] ∧
      r.add "low" = .error (.elementIdsExhausted "m.Level") ∧
      (ElementCall.next "low").exec r = (.error (.elementIdsExhausted "m.Level"), r) ∧
      r.element? "last" = some ⟨0, "m.Level", "last", 2147483647⟩ := by
  intro calls r
  have elements : r.elements = [⟨0, "m.Level", "low", -5⟩, ⟨0, "m.Level", "zero", 0⟩,
      ⟨0, "m.Level", "last", 2147483647⟩] := by decide +kernel
  obtain ⟨_, _, _, _, add, _, _, call, element⟩ := numbering_of_calls 0 "m.Level" none calls
  have refused : r.add "low" = .error (.elementIdsExhausted "m.Level") := by
    refine (add "low" _).mpr (.inl ⟨⟨⟨0, "m.Level", "last", 2147483647⟩, ?_, rfl⟩, rfl⟩)
    rw [elements]
    decide
  refine ⟨by rw [elements]; rfl, by decide +kernel, by decide +kernel, refused,
    (call (.next "low")).1 _ refused, ?_⟩
  refine ((element "last").2 _).mpr ⟨?_, rfl⟩
  rw [EnumBuilder.build, elements]
  decide

end Register

end IdlGen
