import IdlGen.Proofs.Types.Check
import IdlGen.Proofs.Types.Distinct

/-!
# Values of a type

`Ty.Inhabits` says which values a type has, without reference to how literals are checked. A value
of a type is accepted as it is when it is written as a literal, and what a primitive type accepts
becomes a value of it.
-/

namespace IdlGen

/-- The values of a type. -/
inductive Ty.Inhabits : Ty → Value → Prop
  | null {t : Ty} (nullable : t.nullable = true) : Inhabits t .null
  | bool (b : Bool) : Inhabits (.prim .bool) (.bool b)
  | int {w : IntWidth} {n : Int} (low : w.min ≤ n) (high : n ≤ w.max) :
      Inhabits (.prim (.int w)) (.int n)
  | char {w : IntWidth} {c : Char} (ascii : w = .w8 → c.toNat ≤ 127) :
      Inhabits (.prim (.int w)) (.char c)
  | double (d : Double) : Inhabits (.prim .double) (.double d)
  | str (s : String) : Inhabits (.prim .string) (.str s)
  | binary (bytes : List UInt8) : Inhabits (.prim .binary) (.binary bytes)
  | enum {stamp : Nat} {model : Option String} {name : String} {body : Enumeration}
      {element : EnumElement} (owned : body.owns element = true) :
      Inhabits (.enum stamp model name body) (.enum element)
  | list {stamp : Nat} {e : Ty} {items : List Value} (each : ∀ v ∈ items, Inhabits e v) :
      Inhabits (.list stamp e) (.list items)
  | set {stamp : Nat} {e : Ty} {items : List Value} (each : ∀ v ∈ items, Inhabits e v)
      (differ : items.Pairwise Value.Differ) : Inhabits (.set stamp e) (.set items)
  | map {stamp : Nat} {key value : Ty} {entries : List (Value × Value)}
      (keys : ∀ k ∈ entries.map Prod.fst, Inhabits key k)
      (values : ∀ v ∈ entries.map Prod.snd, Inhabits value v)
      (differ : (entries.map Prod.fst).Pairwise Value.Differ) :
      Inhabits (.map stamp key value) (.map entries)

/-- A value of a type is accepted as it is. -/
theorem Ty.Inhabits.check_ofValue {t : Ty} {v : Value} (h : t.Inhabits v) :
    t.check (Literal.ofValue v) = .ok v := by
  induction h with
  | null nullable => exact check_null_iff.mpr ⟨rfl, nullable⟩
  | bool | double | str | binary => rfl
  | @int w n low high =>
      have held : w.holds n = true := by simp [IntWidth.holds, low, high]
      exact if_pos held
  | @char w c ascii =>
      refine if_neg fun refused => ?_
      obtain ⟨narrow, wide⟩ : w = .w8 ∧ 127 < c.toNat := by simpa using refused
      exact absurd (ascii narrow) (Nat.not_le.mpr wide)
  | enum owned => exact (check_enum_iff rfl).mpr ⟨_, rfl, rfl, owned⟩
  | @list stamp e items each ih =>
      refine (check_list_iff rfl).mpr ⟨_, items, rfl, rfl, ?_⟩
      rw [Literal.ofValues_eq_map, List.forall₂_map_left_iff, List.forall₂_same]
      exact ih
  | @set stamp e items each differ ih =>
      refine (check_set_iff rfl).mpr ⟨_, items, rfl, ?_, ?_⟩
      · rw [Value.distinct_eq_self differ]
      · rw [Literal.ofValues_eq_map, List.forall₂_map_left_iff, List.forall₂_same]
        exact ih
  | @map stamp key value entries keys values differ ihKeys ihValues =>
      refine (check_map_iff rfl).mpr ⟨_, entries, rfl, ?_, ?_⟩
      · rw [Value.collapse_eq_self differ]
      · rw [Literal.ofEntries_eq_map, List.forall₂_map_left_iff, List.forall₂_same]
        intro entry member
        exact ⟨ihKeys _ (List.mem_map_of_mem member), ihValues _ (List.mem_map_of_mem member)⟩

theorem Primitive.inhabits_of_check {p : Primitive} {lit : Literal} {v : Value}
    (h : p.check lit = .ok v) : (Ty.prim p).Inhabits v := by
  unfold check at h
  split at h
  · cases h; exact .bool _
  · cases h; exact .bool _
  · cases h; exact .bool _
  · rename_i w n
    split at h
    · rename_i held
      cases h
      obtain ⟨low, high⟩ : w.min ≤ n ∧ n ≤ w.max := by simpa [IntWidth.holds] using held
      exact .int low high
    · cases h
  · rename_i w c
    split at h
    · cases h
    · rename_i accepted
      cases h
      refine .char fun narrow => Nat.not_lt.mp fun wide => accepted ?_
      simp [narrow, wide]
  · cases h; exact .double _
  · split at h
    · cases h; exact .double _
    · cases h
  · cases h; exact .str _
  · cases h; exact .binary _
  · split at h
    · cases h; exact .binary _
    · cases h
  · cases h

end IdlGen
