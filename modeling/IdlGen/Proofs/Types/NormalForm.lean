import IdlGen.Proofs.Types.Check
import IdlGen.Proofs.Types.Distinct
import Mathlib.Data.List.Induction

/-!
# The normal form of sets and maps

A set keeps the items that equal none before them. A map keeps the first of equal keys, in its
place, with the value that came last. Items and keys are compared as values, after they have been
checked, so literals that differ may become one item.

A check compares a value with those that it has kept so far and not with all that came before. Both
are the same because equality of values is transitive. It is not reflexive, so a NaN is never
dropped and never found again.
-/

namespace IdlGen

theorem Double.numericEq_trans {x y z : Double} (first : x.numericEq y = true)
    (second : y.numericEq z = true) : x.numericEq z = true := by
  simp only [numericEq, Bool.and_eq_true, Bool.or_eq_true, decide_eq_true_eq] at first second ⊢
  obtain ⟨⟨number, _⟩, left⟩ := first
  obtain ⟨⟨_, number'⟩, right⟩ := second
  refine ⟨⟨number, number'⟩, ?_⟩
  rcases left with bits | ⟨zero, zero'⟩
  · obtain rfl : x = y := congrArg Double.mk bits
    exact right
  · rcases right with bits | ⟨_, zero''⟩
    · obtain rfl : y = z := congrArg Double.mk bits
      exact .inr ⟨zero, zero'⟩
    · exact .inr ⟨zero, zero''⟩

namespace Value

mutual

theorem equal_trans (a b c : Value) (first : a.equal b = true) (second : b.equal c = true) :
    a.equal c = true := by
  cases a with
  | list as =>
      cases b with
      | list bs =>
          cases c with
          | list cs => exact equalAll_trans as bs cs first second
          | _ => cases second
      | _ => cases first
  | set as =>
      cases b with
      | set bs =>
          cases c with
          | set cs => exact equalAll_trans as bs cs first second
          | _ => cases second
      | _ => cases first
  | map as =>
      cases b with
      | map bs =>
          cases c with
          | map cs => exact equalEntries_trans as bs cs first second
          | _ => cases second
      | _ => cases first
  | double x =>
      cases b with
      | double y =>
          cases c with
          | double z => exact Double.numericEq_trans first second
          | _ => cases second
      | _ => cases first
  | null =>
      cases b with
      | null => exact second
      | _ => cases first
  | bool | int | char | str | binary | enum =>
      cases b <;> simp only [equal, Bool.false_eq_true, decide_eq_true_eq] at first
      subst first
      exact second
termination_by structural a

theorem equalAll_trans (as bs cs : List Value) (first : equalAll as bs = true)
    (second : equalAll bs cs = true) : equalAll as cs = true := by
  cases as with
  | nil =>
      cases bs with
      | nil => exact second
      | cons b bs => cases first
  | cons a as =>
      cases bs with
      | nil => cases first
      | cons b bs =>
          cases cs with
          | nil => cases second
          | cons c cs =>
              simp only [equalAll, Bool.and_eq_true] at first second ⊢
              exact ⟨equal_trans a b c first.1 second.1, equalAll_trans as bs cs first.2 second.2⟩
termination_by structural as

theorem equalEntries_trans (as bs cs : List (Value × Value)) (first : equalEntries as bs = true)
    (second : equalEntries bs cs = true) : equalEntries as cs = true := by
  cases as with
  | nil =>
      cases bs with
      | nil => exact second
      | cons b bs => cases first
  | cons a as =>
      cases bs with
      | nil => cases first
      | cons b bs =>
          cases cs with
          | nil => cases second
          | cons c cs =>
              obtain ⟨k, v⟩ := a
              obtain ⟨k', v'⟩ := b
              obtain ⟨k'', v''⟩ := c
              simp only [equalEntries, Bool.and_eq_true] at first second ⊢
              exact ⟨⟨equal_trans k k' k'' first.1.1 second.1.1,
                equal_trans v v' v'' first.1.2 second.1.2⟩,
                equalEntries_trans as bs cs first.2 second.2⟩
termination_by structural as

end

section Firsts

variable {α : Type} (key : α → Value)

/-- The items whose key equals that of no item before them. -/
def firstsBy (items : List α) : List α :=
  (items.zipIdx.filter fun x =>
    !(items.take x.2).any fun a => (key a).equal (key x.1)).map Prod.fst

/-- One more item is kept unless an earlier one has an equal key. Nothing else changes. -/
@[simp, grind =] theorem firstsBy_concat (items : List α) (a : α) :
    firstsBy key (items ++ [a]) =
      firstsBy key items ++ if items.any (fun b => (key b).equal (key a)) then [] else [a] := by
  have before : ∀ x ∈ items.zipIdx, (items ++ [a]).take x.2 = items.take x.2 := by
    intro x inside
    have place : x.2 < items.length := by simpa using List.snd_lt_of_mem_zipIdx inside
    exact List.take_append_of_le_length (Nat.le_of_lt place)
  unfold firstsBy
  rw [List.zipIdx_append, List.filter_append, List.map_append]
  congr 1
  · congr 1
    refine List.filter_congr fun x inside => ?_
    rw [before x inside]
  · by_cases found : (items.any fun b => (key b).equal (key a)) = true <;> simp [found]

/-- An item that was not kept is represented by one that was. -/
@[simp] theorem any_firstsBy (items : List α) (v : Value) :
    ((firstsBy key items).any fun a => (key a).equal v) = items.any fun a => (key a).equal v := by
  induction items using List.reverseRecOn with
  | nil => rfl
  | append_singleton items a ih =>
      rw [firstsBy_concat, List.any_append, List.any_append, ih]
      split
      · rename_i found
        cases same : (key a).equal v with
        | false => simp [same]
        | true =>
            -- The item was dropped for an equal one, which equals what the item equals.
            obtain ⟨b, member, earlier⟩ := List.any_eq_true.mp found
            have represented : (items.any fun a => (key a).equal v) = true :=
              List.any_eq_true.mpr ⟨b, member, equal_trans _ _ _ earlier same⟩
            simp [represented]
      · rfl

end Firsts

/-- What a set keeps are the first items. -/
theorem distinct_eq_firstsBy (items : List Value) : distinct items = firstsBy id items := by
  induction items using List.reverseRecOn with
  | nil => rfl
  | append_singleton items v ih =>
      have step : distinct (items ++ [v]) = addNew (distinct items) v := by
        rw [distinct, List.foldl_append]
        rfl
      have seen := any_firstsBy id items v
      simp only [id_eq] at seen
      rw [step, ih, firstsBy_concat, addNew, seen]
      simp only [id_eq]
      split <;> simp

/-- The value of the last entry whose key equals that of the given one. An entry whose key differs
from itself keeps its own. -/
def lastValue (entries : List (Value × Value)) (entry : Value × Value) : Value :=
  ((entries.filter fun e => e.1.equal entry.1).getLast?.getD entry).2

/-- First keys with last values. -/
def settled (entries : List (Value × Value)) : List (Value × Value) :=
  (firstsBy Prod.fst entries).map fun e => (e.1, lastValue entries e)

@[simp, grind =] theorem lastValue_concat (entries : List (Value × Value)) (key value : Value)
    (entry : Value × Value) :
    lastValue (entries ++ [(key, value)]) entry =
      if key.equal entry.1 then value else lastValue entries entry := by
  unfold lastValue
  rw [List.filter_append]
  by_cases same : key.equal entry.1 = true <;> simp [same]

/-- Where the keys differ, at most one of them equals the given key, and it gets the value. -/
theorem put_of_any {entries : List (Value × Value)} {key value : Value}
    (differ : (entries.map Prod.fst).Pairwise Differ)
    (found : (entries.any fun e => e.1.equal key) = true) :
    put key value entries =
      entries.map fun e => (e.1, if key.equal e.1 then value else e.2) := by
  induction entries with
  | nil => cases found
  | cons entry rest ih =>
      obtain ⟨k, v⟩ := entry
      obtain ⟨apart, differ⟩ := List.pairwise_cons.mp differ
      rw [List.map_cons, put, equal_comm key]
      by_cases same : k.equal key = true
      · -- The search ends here. A later key that equals the given one would equal this one.
        have others : ∀ e ∈ rest, key.equal e.1 = false := by
          intro e member
          refine Bool.eq_false_iff.mpr fun again => ?_
          have equal := equal_trans k key e.1 same again
          exact Bool.eq_false_iff.mp (apart e.1 (List.mem_map_of_mem member)).1 equal
        have kept : rest.map (fun e => (e.1, if key.equal e.1 then value else e.2)) = rest := by
          refine (List.map_congr_left fun e member => ?_).trans (List.map_id rest)
          simp [others e member]
        rw [if_pos same, if_pos same, kept]
      · rw [if_neg same, if_neg same, ih differ (by simpa [same] using found)]

theorem put_of_not_any {entries : List (Value × Value)} {key value : Value}
    (new : ¬ (entries.any fun e => e.1.equal key) = true) :
    put key value entries = entries ++ [(key, value)] := by
  refine put_of_differ fun e member => differ_iff.mpr (Bool.eq_false_iff.mpr fun same => new ?_)
  exact List.any_eq_true.mpr ⟨e, member, same⟩

/-- One more entry changes the value of an equal key, or it comes last. -/
theorem settled_concat (entries : List (Value × Value)) (key value : Value) :
    settled (entries ++ [(key, value)]) =
      if entries.any (fun e => e.1.equal key) then
        (settled entries).map fun e => (e.1, if key.equal e.1 then value else e.2)
      else settled entries ++ [(key, value)] := by
  unfold settled
  simp only [firstsBy_concat, List.map_append, lastValue_concat]
  split
  · simp
  · rename_i new
    have old : ∀ e ∈ firstsBy Prod.fst entries, key.equal e.1 = false := by
      intro e member
      refine Bool.eq_false_iff.mpr fun same => new ?_
      rw [← any_firstsBy Prod.fst entries key]
      exact List.any_eq_true.mpr ⟨e, member, equal_comm key e.1 ▸ same⟩
    have alone : lastValue entries (key, value) = value := by
      have none : (entries.filter fun e => e.1.equal key) = [] := by
        refine List.filter_eq_nil_iff.mpr fun e member same => new ?_
        exact List.any_eq_true.mpr ⟨e, member, same⟩
      simp [lastValue, none]
    congr 1
    · refine List.map_congr_left fun e member => ?_
      simp [old e member]
    · simp [alone]

/-- What a map keeps are the first keys, each with its last value. -/
theorem collapse_eq_settled (entries : List (Value × Value)) :
    collapse entries = settled entries := by
  induction entries using List.reverseRecOn with
  | nil => rfl
  | append_singleton entries entry ih =>
      obtain ⟨key, value⟩ := entry
      have step : collapse (entries ++ [(key, value)]) = put key value (collapse entries) := by
        rw [collapse, List.foldl_append]
        rfl
      have differ : ((collapse entries).map Prod.fst).Pairwise Differ := by
        rw [map_fst_collapse]
        exact pairwise_distinct _
      have seen : ((collapse entries).any fun e => e.1.equal key) =
          entries.any fun e => e.1.equal key := by
        rw [ih, settled, List.any_map]
        exact any_firstsBy Prod.fst entries key
      rw [step, settled_concat, ← ih, ← seen]
      split
      · rename_i found
        exact put_of_any differ found
      · rename_i new
        exact put_of_not_any new

end Value

/-- A sequence of two steps fails with the first, or with the second after the first. -/
theorem bind_eq_error_iff {ε α β : Type} {x : Except ε α} {f : α → Except ε β} {e : ε} :
    (x >>= f) = .error e ↔ x = .error e ∨ ∃ a, x = .ok a ∧ f a = .error e := by
  cases x with
  | error e' => simp [bind, Except.bind]
  | ok a => simp [bind, Except.bind]

/-- A pass over a list fails with the error of the first step that fails. -/
theorem mapM_eq_error_iff {ε α β : Type} {f : α → Except ε β} {as : List α} {e : ε} :
    as.mapM f = .error e ↔
      ∃ before a after, as = before ++ a :: after ∧ (∀ x ∈ before, ∃ b, f x = .ok b) ∧
        f a = .error e := by
  induction as with
  | nil => simp [pure, Except.pure]
  | cons a as ih =>
      have step : (a :: as).mapM f = .error e ↔
          f a = .error e ∨ (∃ b, f a = .ok b) ∧ as.mapM f = .error e := by
        rw [List.mapM_cons, bind_eq_error_iff]
        simp [bind_eq_error_iff, pure, Except.pure]
      rw [step, ih]
      constructor
      · rintro (first | ⟨accepted, before, x, after, rfl, earlier, failed⟩)
        · exact ⟨[], a, as, rfl, by simp, first⟩
        · exact ⟨a :: before, x, after, rfl, List.forall_mem_cons.mpr ⟨accepted, earlier⟩, failed⟩
      · rintro ⟨before, x, after, split, earlier, failed⟩
        cases before with
        | nil =>
            cases split
            exact .inl failed
        | cons b before =>
            cases split
            obtain ⟨accepted, earlier⟩ := List.forall_mem_cons.mp earlier
            exact .inr ⟨accepted, before, x, after, rfl, earlier, failed⟩

namespace Ty

/-- The literal stands for a value of the type. -/
def Accepts (t : Ty) (lit : Literal) : Prop := ∃ v, t.check lit = .ok v

variable {key value : Ty} {entry : Literal × Literal}

theorem exists_checkEntry_iff :
    (∃ pair, checkEntry key value entry = .ok pair) ↔
      key.Accepts entry.1 ∧ value.Accepts entry.2 := by
  simp only [checkEntry_eq_ok_iff, Accepts]
  constructor
  · rintro ⟨pair, first, second⟩
    exact ⟨⟨pair.1, first⟩, ⟨pair.2, second⟩⟩
  · rintro ⟨⟨k, first⟩, ⟨v, second⟩⟩
    exact ⟨(k, v), first, second⟩

@[simp] theorem checkEntry_eq_error_iff {e : ModelError} :
    checkEntry key value entry = .error e ↔
      key.check entry.1 = .error e ∨ key.Accepts entry.1 ∧ value.check entry.2 = .error e := by
  unfold checkEntry Accepts
  simp [bind_eq_error_iff]

/-- A set is made of the first items of a list, a map of the first keys with their last values. They
are refused with the error of the first item, or of the first key or value, that is refused. -/
theorem check_normalizes (n : Nat) (t key value : Ty) (items : List Literal)
    (entries : List (Literal × Literal)) :
    (∀ v, (set n t).check (.list items) = .ok v ↔
      ∃ values, List.Forall₂ (fun item w => t.check item = .ok w) items values ∧
        v = .set (Value.firstsBy id values)) ∧
    (∀ v, (map n key value).check (.map entries) = .ok v ↔
      ∃ pairs, List.Forall₂ (fun entry pair =>
          key.check entry.1 = .ok pair.1 ∧ value.check entry.2 = .ok pair.2) entries pairs ∧
        v = .map ((Value.firstsBy Prod.fst pairs).map fun p => (p.1, Value.lastValue pairs p))) ∧
    (∀ e, (set n t).check (.list items) = .error e ↔
      ∃ before item after, items = before ++ item :: after ∧ (∀ x ∈ before, t.Accepts x) ∧
        t.check item = .error e) ∧
    ∀ e, (map n key value).check (.map entries) = .error e ↔
      ∃ before entry after, entries = before ++ entry :: after ∧
        (∀ x ∈ before, key.Accepts x.1 ∧ value.Accepts x.2) ∧
        (key.check entry.1 = .error e ∨ key.Accepts entry.1 ∧ value.check entry.2 = .error e) := by
  refine ⟨fun v => ?_, fun v => ?_, fun e => ?_, fun e => ?_⟩
  · rw [check_set_iff rfl]
    simp [Value.distinct_eq_firstsBy, and_comm]
  · rw [check_map_iff rfl]
    simp [Value.collapse_eq_settled, Value.settled, and_comm]
  · rw [check_set, bind_eq_error_iff]
    simp [mapM_eq_error_iff, Accepts]
  · rw [check_map, bind_eq_error_iff]
    simp only [mapM_eq_error_iff, exists_checkEntry_iff, checkEntry_eq_error_iff]
    simp

/-- A whole number and a negative zero become one key, which takes the value of the second. Two NaNs
stay two. A key that is too large is refused before its value is looked at. -/
theorem check_normalizes_collisions :
    let nan : Double := ⟨0x7ff8000000000000⟩
    let zeros := [Literal.int 0, .double ⟨0x8000000000000000⟩]
    let nans := [Literal.double nan, .double nan]
    let entries := (zeros ++ nans).zip [.int 1, .bool false, .bool true, .int 0]
    (set 0 (prim .double)).check (.list (zeros ++ nans)) =
        .ok (.set [.double ⟨0⟩, .double nan, .double nan]) ∧
      (map 0 (prim .double) (prim .bool)).check (.map entries) =
        .ok (.map [(.double ⟨0⟩, .bool false), (.double nan, .bool true),
          (.double nan, .bool false)]) ∧
      (map 0 (prim (.int .w8)) (prim .bool)).check
          (.map [(.int 1, .int 1), (.int 200, .str "")]) =
        .error (.outOfRange "byte" "200") := by
  intro nan zeros nans entries
  have normal := check_normalizes 0 (prim .double) (prim .double) (prim .bool) (zeros ++ nans)
    entries
  refine ⟨(normal.1 _).mpr ?_, (normal.2.1 _).mpr ?_, ?_⟩
  · exact ⟨[.double ⟨0⟩, .double ⟨0x8000000000000000⟩, .double nan, .double nan],
      .cons rfl (.cons rfl (.cons rfl (.cons rfl .nil))), by unfold nan; rfl⟩
  · exact ⟨[(.double ⟨0⟩, .bool true), (.double ⟨0x8000000000000000⟩, .bool false),
        (.double nan, .bool true), (.double nan, .bool false)],
      .cons ⟨rfl, rfl⟩ (.cons ⟨rfl, rfl⟩ (.cons ⟨rfl, rfl⟩ (.cons ⟨rfl, rfl⟩ .nil))),
      by unfold nan; rfl⟩
  · refine ((check_normalizes 0 (prim .bool) (prim (.int .w8)) (prim .bool) [] _).2.2.2 _).mpr ?_
    refine ⟨[(.int 1, .int 1)], (.int 200, .str ""), [], rfl, fun x member => ?_, .inl rfl⟩
    cases List.mem_singleton.mp member
    exact ⟨⟨_, rfl⟩, ⟨_, rfl⟩⟩

end Ty

end IdlGen
