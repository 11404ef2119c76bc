import IdlGen.Proofs.Types.Check
import IdlGen.Proofs.Types.Numbering

/-!
# Whose element it is

Enumerations are built side by side, some under the same name, and some are never closed. An element
carries the stamp of the builder that made it, and an enumeration goes by the stamp alone to tell
whether an element is its own. It need not look at its elements: a stamp is given out once, a
builder returns what it keeps, and a closed enumeration takes nothing more.
-/

namespace IdlGen

/-- An enumeration in the making: it takes elements, or it is closed. -/
inductive Making where
  | growing (r : Register)
  | closed (body : Enumeration)

namespace Making

def id : Making → Nat
  | growing r => r.id
  | closed body => body.id

def elements : Making → List EnumElement
  | growing r => r.elements
  | closed body => body.elements

end Making

/-- Enumerations that are built side by side, in the order in which they were started, and the
elements that were returned, each with the place of its builder. -/
structure Workshop where
  stamps : Stamps
  places : List Making := []
  returned : List (Nat × EnumElement) := []

namespace Workshop

/-- What can happen next. A stamp may also be given out for something else. -/
inductive Act where
  | start (qname : String) (docs : Docs)
  | call (place : Nat) (call : ElementCall)
  | close (place : Nat)
  | stamp

/-- Puts something into a place, which returns some elements. -/
def replace (w : Workshop) (place : Nat) (m : Making) (new : List EnumElement) : Workshop :=
  { w with
    places := w.places.set place m
    returned := w.returned ++ new.map fun e => (place, e) }

/-- The builder at a place. -/
def builder? (w : Workshop) (place : Nat) : Option Register :=
  match w.places[place]? with
  | some (.growing r) => some r
  | _ => none

def step (w : Workshop) : Act → Workshop
  | .start qname docs =>
    let (id, stamps) := w.stamps.take
    { w with stamps, places := w.places ++ [.growing (.new id qname docs)] }
  | .call place call =>
    match w.builder? place with
    | some r => w.replace place (.growing (call.exec r).2) (call.exec r).1.toOption.toList
    | none => w
  | .close place =>
    match w.builder? place with
    | some r => w.replace place (.closed r.build) []
    | none => w
  | .stamp => { w with stamps := w.stamps.take.2 }

def run (w : Workshop) (acts : List Act) : Workshop := acts.foldl step w

/-- The stamp of the enumeration at a place. -/
def idAt (w : Workshop) (place : Nat) : Option Nat := w.places[place]?.map Making.id

/-- The elements that the builder at a place has returned. -/
def returnedAt (w : Workshop) (place : Nat) : List EnumElement :=
  (w.returned.filter (·.1 = place)).map Prod.snd

/-- Stamps have been given out and differ from place to place, and elements are where they were
made, in the order in which they were returned. -/
structure Orderly (w : Workshop) : Prop where
  stamped : ∀ {i k}, w.idAt i = some k → k < w.stamps.next
  distinct : ∀ {i j k}, w.idAt i = some k → w.idAt j = some k → i = j
  elements : ∀ {i m}, w.places[i]? = some m → m.elements = w.returnedAt i
  owner : ∀ x ∈ w.returned, w.idAt x.1 = some x.2.owner

variable {w : Workshop} {i : Nat} {m m' : Making}

theorem getElem?_of_builder? {r : Register} (found : w.builder? i = some r) :
    w.places[i]? = some (.growing r) := by
  unfold builder? at found
  split at found
  · cases found
    assumption
  · cases found

theorem getElem?_replace (here : w.places[i]? = some m) (new : List EnumElement) (j : Nat) :
    (w.replace i m' new).places[j]? = if i = j then some m' else w.places[j]? := by
  have inside : i < w.places.length := (List.getElem?_eq_some_iff.mp here).1
  simp [replace, List.getElem?_set, inside]

theorem idAt_replace (here : w.places[i]? = some m) (id : m'.id = m.id) (new : List EnumElement)
    (j : Nat) : (w.replace i m' new).idAt j = w.idAt j := by
  unfold idAt
  rw [getElem?_replace here]
  split
  · rename_i same
    rw [← same, here, Option.map_some, Option.map_some, id]
  · rfl

@[simp, grind =]
theorem mem_returnedAt {e : EnumElement} : e ∈ w.returnedAt i ↔ (i, e) ∈ w.returned := by
  simp [returnedAt]

@[simp, grind =]
theorem returnedAt_replace (w : Workshop) (i : Nat) (m : Making) (new : List EnumElement)
    (j : Nat) : (w.replace i m new).returnedAt j = w.returnedAt j ++ if i = j then new else [] := by
  unfold returnedAt replace
  rw [List.filter_append, List.map_append]
  by_cases here : i = j <;> simp [here, List.filter_map, Function.comp_def]

@[simp, grind =] theorem getElem?_start (w : Workshop) (qname : String) (docs : Docs) (j : Nat) :
    (w.step (.start qname docs)).places[j]? =
      if j = w.places.length then some (.growing (.new w.stamps.next qname docs))
      else w.places[j]? := by
  have step : (w.step (.start qname docs)).places =
      w.places ++ [.growing (.new w.stamps.next qname docs)] := rfl
  rw [step, List.getElem?_append]
  grind

namespace Orderly

@[simp] theorem empty (stamps : Stamps) : Orderly { stamps } where
  stamped := by simp [idAt]
  distinct := by simp [idAt]
  elements := by simp
  owner := by simp

/-- A place may take further elements of its own and return them. -/
theorem replace (orderly : w.Orderly) {new : List EnumElement} (here : w.places[i]? = some m)
    (id : m'.id = m.id) (elements : m'.elements = m.elements ++ new)
    (owner : ∀ e ∈ new, e.owner = m.id) : (w.replace i m' new).Orderly where
  stamped found := by
    rw [idAt_replace here id] at found
    exact orderly.stamped found
  distinct found found' := by
    rw [idAt_replace here id] at found found'
    exact orderly.distinct found found'
  elements found := by
    rw [getElem?_replace here] at found
    rw [returnedAt_replace]
    split at found
    · rename_i same
      cases found
      rw [elements, orderly.elements here, same, if_pos rfl]
    · rename_i other
      rw [if_neg other, List.append_nil]
      exact orderly.elements found
  owner x member := by
    rw [idAt_replace here id]
    rcases List.mem_append.mp member with old | added
    · exact orderly.owner x old
    · obtain ⟨e, isNew, rfl⟩ := List.mem_map.mp added
      rw [idAt, here, Option.map_some, owner e isNew]

/-- A new enumeration has a stamp that no other has, and has returned nothing. -/
theorem start (orderly : w.Orderly) (qname : String) (docs : Docs) :
    (w.step (.start qname docs)).Orderly := by
  have ids : ∀ j, (w.step (.start qname docs)).idAt j =
      if j = w.places.length then some w.stamps.next else w.idAt j := by
    intro j
    rw [idAt, getElem?_start]
    split <;> rfl
  have unused : ∀ {j}, w.idAt j ≠ some w.stamps.next := fun found =>
    (orderly.stamped found).false
  -- Nothing can have been returned for a place that did not exist.
  have placed : ∀ x ∈ w.returned, x.1 ≠ w.places.length := by
    intro x member last
    have found := orderly.owner x member
    simp [idAt, last] at found
  constructor
  · intro j k found
    rw [ids] at found
    split at found
    · cases found
      exact Nat.lt_succ_self _
    · exact Nat.lt_succ_of_lt (orderly.stamped found)
  · intro i j k found found'
    rw [ids] at found found'
    split at found <;> split at found'
    · rename_i last last'
      exact last.trans last'.symm
    · cases found
      exact absurd found' unused
    · cases found'
      exact absurd found unused
    · exact orderly.distinct found found'
  · intro j m found
    rw [getElem?_start] at found
    split at found
    · rename_i last
      cases found
      have none : w.returned.filter (·.1 = j) = [] := by
        refine List.filter_eq_nil_iff.mpr fun x member => ?_
        simpa [last] using placed x member
      exact (congrArg (List.map Prod.snd) none).symm
    · exact orderly.elements found
  · intro x member
    rw [ids, if_neg (placed x member)]
    exact orderly.owner x member

theorem call (orderly : w.Orderly) (place : Nat) (call : ElementCall) :
    (w.step (.call place call)).Orderly := by
  rw [step]
  split
  · rename_i r found
    refine orderly.replace (getElem?_of_builder? found) ?_ (r.elements_exec call) ?_
    all_goals rcases call.exec_cases r with ⟨error, refused⟩ | done
    · rw [refused]
    · rw [done]
      rfl
    · rw [refused]
      exact fun e new => absurd new List.not_mem_nil
    · rw [done]
      intro e new
      cases List.mem_singleton.mp new
      rfl
  · exact orderly

theorem close (orderly : w.Orderly) (place : Nat) : (w.step (.close place)).Orderly := by
  rw [step]
  split
  · rename_i r found
    refine orderly.replace (getElem?_of_builder? found) rfl (List.append_nil _).symm ?_
    exact fun e new => absurd new List.not_mem_nil
  · exact orderly

theorem step (orderly : w.Orderly) (act : Act) : (w.step act).Orderly := by
  cases act with
  | start qname docs => exact orderly.start qname docs
  | call place call => exact orderly.call place call
  | close place => exact orderly.close place
  | stamp =>
      exact ⟨fun found => Nat.lt_succ_of_lt (orderly.stamped found), orderly.distinct,
        orderly.elements, orderly.owner⟩

theorem run (orderly : w.Orderly) (acts : List Act) : (w.run acts).Orderly := by
  induction acts generalizing w with
  | nil => exact orderly
  | cons act rest ih => exact ih (orderly.step act)

/-- An element that was returned carries the stamp of a place exactly if it was made there. -/
theorem owner_eq_iff (orderly : w.Orderly) (here : w.places[i]? = some m) {x : Nat × EnumElement}
    (member : x ∈ w.returned) : x.2.owner = m.id ↔ x.2 ∈ m.elements := by
  have stamp : w.idAt i = some m.id := congrArg (Option.map Making.id) here
  rw [orderly.elements here, mem_returnedAt]
  constructor
  · intro same
    have made := orderly.owner x member
    rw [same] at made
    obtain rfl : x.1 = i := orderly.distinct made stamp
    exact member
  · intro returned
    have made := orderly.owner _ returned
    exact Option.some.inj (made.symm.trans stamp)

end Orderly

/-- However enumerations are built side by side, a closed one owns of all elements ever returned
those that are its own, and these are the ones that its builder returned. So its type takes those
and no others, and no two builders return the same element. -/
theorem owns_iff_mem (stamps : Stamps) (acts : List Act) :
    let w := run { stamps } acts
    (∀ i body, w.places[i]? = some (.closed body) →
      body.elements = w.returnedAt i ∧
        ∀ x ∈ w.returned,
          (body.owns x.2 = true ↔ x.2 ∈ body.elements) ∧
            ∀ n model name v, (Ty.enum n model name body).check (.enum x.2) = .ok v ↔
              v = .enum x.2 ∧ x.2 ∈ body.elements) ∧
      ∀ x ∈ w.returned, ∀ y ∈ w.returned, x.1 ≠ y.1 → x.2 ≠ y.2 := by
  intro w
  have orderly : w.Orderly := (Orderly.empty stamps).run acts
  refine ⟨fun i body here => ⟨orderly.elements here, fun x member => ?_⟩, ?_⟩
  · have owns : body.owns x.2 = true ↔ x.2 ∈ body.elements :=
      decide_eq_true_iff.trans (orderly.owner_eq_iff here member)
    refine ⟨owns, fun n model name v => ?_⟩
    rw [Ty.check_enum_iff rfl, ← owns]
    simp
  · intro x member y member' apart same
    have made := orderly.owner x member
    rw [same] at made
    exact apart (orderly.distinct made (orderly.owner y member'))

/-- Two enumerations of one name, with an element of the same name and id each. The first takes its
own element and refuses the other, which looks the same. -/
theorem owns_iff_mem_namesakes :
    let acts : List Act := [.start "m.Color" none, .stamp, .start "m.Color" none,
      .call 1 (.next "red"), .call 0 (.next "red"), .close 0, .call 1 (.withId "red" 7 rfl)]
    let w := run { stamps := {} } acts
    let red : EnumElement := ⟨0, "m.Color", "red", 0⟩
    let red' : EnumElement := ⟨2, "m.Color", "red", 0⟩
    let body : Enumeration := ⟨0, [red], none⟩
    let color := Ty.enum 3 (some "m") "Color" body
    w.places[0]? = some (.closed body) ∧ w.returned = [(1, red'), (0, red)] ∧
      color.check (.enum red) = .ok (.enum red) ∧
      (∀ v, color.check (.enum red') ≠ .ok v) ∧ red ≠ red' := by
  intro acts w red red' body color
  have closed : w.places[0]? = some (.closed body) := rfl
  have returned : w.returned = [(1, red'), (0, red)] := by decide +kernel
  obtain ⟨owned, apart⟩ := owns_iff_mem {} acts
  have mem : (0, red) ∈ w.returned := by simp [returned]
  have mem' : (1, red') ∈ w.returned := by simp [returned]
  obtain ⟨_, takes⟩ := owned 0 body closed
  refine ⟨closed, returned, ?_, fun v taken => ?_, apart _ mem _ mem' (by decide)⟩
  · exact ((takes _ mem).2 3 (some "m") "Color" _).mpr ⟨rfl, List.mem_singleton_self red⟩
  · have foreign := (((takes _ mem').2 3 (some "m") "Color" v).mp taken).2
    exact apart _ mem' _ mem (by decide) (List.mem_singleton.mp foreign)

end Workshop

end IdlGen
