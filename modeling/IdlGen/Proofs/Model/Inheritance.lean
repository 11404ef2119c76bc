import IdlGen.Model.Service
import IdlGen.Proofs.Types.Places

/-!
# Functions of a service and its ancestors

A service has the functions of its ancestors and its own. They are listed from the oldest ancestor
down, and a function that hides another one does not drop it from the list. A name is looked up the
other way, from the service upwards, and by an index in each service. Both agree, because a service
declares no name twice: the nearest function of a name is the last one in the list.
-/

namespace IdlGen

namespace ServiceBody

variable {b b' : ServiceBody} {f : Function} {error : ModelError}

/-- A function that the service declares has the name. -/
def HasName (b : ServiceBody) (name : String) : Prop := ∃ f ∈ b.functions, f.name = name

@[grind =] theorem hasName_iff {name : String} :
    b.HasName name ↔ b.functions.any (·.name = name) = true := by
  simp [HasName]

theorem addFunction_of_hasName (taken : b.HasName f.name) :
    b.addFunction f = .error (.duplicateFunction f.name b.qname) :=
  if_pos (hasName_iff.mp taken)

theorem addFunction_of_new (new : ¬ b.HasName f.name) :
    b.addFunction f = .ok { b with functions := b.functions ++ [f] } :=
  if_neg (hasName_iff.not.mp new)

@[simp, grind =] theorem addFunction_eq_ok_iff :
    b.addFunction f = .ok b' ↔
      ¬ b.HasName f.name ∧ b' = { b with functions := b.functions ++ [f] } := by
  by_cases taken : b.HasName f.name
  · simp [addFunction_of_hasName taken, taken]
  · simp [addFunction_of_new taken, taken, eq_comm]

@[simp, grind =] theorem addFunction_eq_error_iff :
    b.addFunction f = .error error ↔
      b.HasName f.name ∧ error = .duplicateFunction f.name b.qname := by
  by_cases taken : b.HasName f.name
  · simp [addFunction_of_hasName taken, taken, eq_comm]
  · simp [addFunction_of_new taken, taken]

end ServiceBody

/-- What a service declares, with the place of each name beside it. -/
structure Roster extends ServiceBody where
  places : List (String × Nat) := []

namespace Roster

/-- Adds a function at the end. -/
def insert (f : Function) : InPlace Roster Unit := do
  let r ← get
  if (r.places.lookup f.name).isSome then throw (.duplicateFunction f.name r.qname)
  modify fun r => { r with places := (f.name, r.functions.length) :: r.places }
  modify fun r => { r with functions := r.functions ++ [f] }

/-- The places lead to the functions. -/
def Agrees (r : Roster) : Prop := Locates (·.name) r.functions r.places

/-- The roster with one more function. -/
def push (r : Roster) (f : Function) : Roster where
  toServiceBody := { r.toServiceBody with functions := r.functions ++ [f] }
  places := (f.name, r.functions.length) :: r.places

@[simp] theorem exec_insert (r : Roster) (f : Function) :
    InPlace.exec (insert f) r =
      if (r.places.lookup f.name).isSome then (.error (.duplicateFunction f.name r.qname), r)
      else (.ok (), r.push f) := by
  rw [insert, InPlace.exec_get_bind]
  by_cases taken : (r.places.lookup f.name).isSome = true
  · simp only [taken]
    rfl
  · simp only [taken]
    rfl

theorem insert_refines :
    Refines insert ServiceBody.addFunction Roster.toServiceBody Agrees where
  error {r f error} agrees refused := by
    obtain ⟨taken, rfl⟩ := ServiceBody.addFunction_eq_error_iff.mp refused
    rw [exec_insert, if_pos (agrees.isSome_lookup_iff.mpr taken)]
  ok {r f b} agrees added := by
    obtain ⟨new, rfl⟩ := ServiceBody.addFunction_eq_ok_iff.mp added
    refine ⟨r.push f, ?_, rfl, agrees.concat new⟩
    rw [exec_insert, if_neg (agrees.isSome_lookup_iff.not.mpr new)]

/-- The function at the place of the name, in the first of the services that has one. -/
def function? (name : String) : List Roster → Option Function
  | [] => none
  | r :: ancestors =>
    match r.places.lookup name with
    | some i => r.functions[i]?
    | none => function? name ancestors

/-- A place of a name in the first service is not looked for further on. -/
theorem Agrees.function?_cons {r : Roster} (agrees : r.Agrees) (name : String)
    (ancestors : List Roster) :
    function? name (r :: ancestors) =
      (r.toServiceBody.function? name).or (function? name ancestors) := by
  rw [ServiceBody.function?, ← agrees.bind_getElem?_eq_find? name, function?]
  cases found : r.places.lookup name with
  | none => rfl
  | some i =>
      obtain ⟨f, here, _⟩ := (agrees name i).mp found
      rw [Option.bind_some, here, Option.some_or]
      exact here

end Roster

/-- Where keys are distinct, the first item with a key is the last one. -/
theorem find?_eq_getLast?_filter {α β : Type} [DecidableEq β] {key : α → β} {xs : List α}
    (distinct : (xs.map key).Nodup) (k : β) :
    xs.find? (key · = k) = (xs.filter (key · = k)).getLast? := by
  refine Option.ext fun x => ?_
  rw [find?_eq_some_iff_of_nodup distinct]
  constructor
  · rintro ⟨member, keyed⟩
    have kept : x ∈ xs.filter (key · = k) := List.mem_filter.mpr ⟨member, by simpa using keyed⟩
    have last := List.getLast_mem (List.ne_nil_of_mem kept)
    rw [List.getLast?_eq_some_getLast (List.ne_nil_of_mem kept)]
    obtain ⟨member', keyed'⟩ := List.mem_filter.mp last
    have same := List.inj_on_of_nodup_map distinct member' member
      ((decide_eq_true_eq.mp keyed').trans keyed.symm)
    rw [same]
  · intro last
    obtain ⟨member, keyed⟩ := List.mem_filter.mp (List.mem_of_getLast? last)
    exact ⟨member, by simpa using keyed⟩

/-- A service without functions and the functions that are then added to it. -/
structure ServiceDraft where
  model : Option String
  name : String
  docs : Docs
  calls : List Function

namespace ServiceDraft

def start (d : ServiceDraft) : ServiceBody := ⟨d.model, d.name, [], d.docs⟩

def body (d : ServiceDraft) : ServiceBody := addAll ServiceBody.addFunction d.start d.calls

def roster (d : ServiceDraft) : Roster := insertAll Roster.insert ⟨d.start, []⟩ d.calls

/-- The functions that were added. -/
def added (d : ServiceDraft) : List Function := accepted ServiceBody.addFunction d.start d.calls

/-- The service on top of its ancestors, the nearest of them first. -/
def service (d : ServiceDraft) : List ServiceDraft → Service
  | [] => .root d.body
  | parent :: ancestors => .derived d.body (parent.service ancestors)

theorem roster_agrees (d : ServiceDraft) : d.roster.Agrees ∧ d.roster.toServiceBody = d.body := by
  have empty : Roster.Agrees ⟨d.start, []⟩ := Locates.nil
  exact Roster.insert_refines.insertAll empty d.calls

@[simp] theorem functions_body (d : ServiceDraft) : d.body.functions = d.added :=
  items_addAll ServiceBody.functions_addFunction d.start d.calls

@[simp] theorem function?_body (d : ServiceDraft) (name : String) :
    d.body.function? name = (d.body.functions.filter (·.name = name)).getLast? := by
  obtain ⟨agrees, same⟩ := d.roster_agrees
  exact find?_eq_getLast?_filter (same ▸ agrees.nodup) name

/-- The functions of a service are those of its oldest ancestor, of the next one, and so on, each in
the order in which they were added. A name stands for the last function of that name, and it is
found by the index of the nearest service that has it. -/
theorem function?_of_chain (d : ServiceDraft) (ancestors : List ServiceDraft) :
    (d.service ancestors).functions = (d :: ancestors).reverse.flatMap added ∧
      ∀ name,
        (d.service ancestors).function? name =
          ((d.service ancestors).functions.filter (·.name = name)).getLast? ∧
        Roster.function? name ((d :: ancestors).map roster) =
          (d.service ancestors).function? name := by
  induction ancestors generalizing d with
  | nil =>
      obtain ⟨agrees, same⟩ := d.roster_agrees
      refine ⟨?_, fun name => ⟨d.function?_body name, ?_⟩⟩
      · simp [service, Service.functions]
      · rw [List.map_singleton, agrees.function?_cons, same, Roster.function?, Option.or_none]
        rfl
  | cons parent ancestors ih =>
      obtain ⟨agrees, same⟩ := d.roster_agrees
      obtain ⟨above, found⟩ := ih parent
      refine ⟨?_, fun name => ⟨?_, ?_⟩⟩
      · rw [List.reverse_cons, List.flatMap_append, ← above, service, Service.functions,
          functions_body, List.flatMap_singleton]
      · rw [service, Service.function?, Service.functions, List.filter_append,
          List.getLast?_append, ← (found name).1, ← function?_body]
      · rw [List.map_cons, agrees.function?_cons, same, (found name).2]
        rfl

end ServiceDraft

end IdlGen
