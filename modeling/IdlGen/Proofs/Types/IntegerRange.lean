import IdlGen.Proofs.Types.Inlining

/-!
# Numbers of integer types

An integer type takes the whole numbers of its range. It also takes characters, which count as
numbers by their code points. Only a byte looks at the code point. All code points fit 32 and 64
bits, so nothing is missed there, but those from `0x8000` on do not fit 16 bits.
-/

namespace IdlGen

/-- An integer type takes its values as they are, and nothing else. -/
theorem Primitive.check_int_iff {w : IntWidth} {lit : Literal} {v : Value} :
    (int w).check lit = .ok v ↔ lit = Literal.ofValue v ∧ (Ty.prim (.int w)).Inhabits v := by
  constructor
  · intro accepted
    refine ⟨?_, inhabits_of_check accepted⟩
    cases lit with
    | int n | char c =>
        simp only [check] at accepted
        split at accepted <;> cases accepted
        rfl
    | _ => cases accepted
  · rintro ⟨rfl, inhabits⟩
    have accepted := inhabits.check_ofValue
    cases inhabits with
    | null nullable => cases nullable
    | int | char => exact accepted

namespace Ty

variable {w : IntWidth} {lit : Literal} {v : Value} {space : TypeSpace}

/-- A primitive type treats a constant like its value. -/
theorem check_prim_const {p : Primitive} {c : Constant} (sound : c.Sound space) :
    (prim p).check (.const c) = (prim p).check (Literal.ofValue c.value) := by
  rw [check_const]
  split
  · rename_i same
    have type : c.type = prim p := by
      obtain ⟨q, isPrim, isPrim'⟩ | ⟨k, _, stamp⟩ := same_iff.mp same
      · exact isPrim.trans isPrim'.symm
      · cases stamp
    have inhabits := sound.2
    rw [type] at inhabits
    exact inhabits.check_ofValue.symm
  · rfl

/-- Constants make no difference to an integer type. -/
theorem check_int_iff (sound : ∀ c ∈ lit.constants, c.Sound space) :
    (prim (.int w)).check lit = .ok v ↔
      lit.inlined = Literal.ofValue v ∧ (prim (.int w)).Inhabits v := by
  have null : (prim (.int w)).check .null = .ok v ↔
      .null = Literal.ofValue v ∧ (prim (.int w)).Inhabits v := by
    rw [check_null_iff]
    constructor
    · rintro ⟨_, nullable⟩
      cases nullable
    · rintro ⟨isNull, inhabits⟩
      cases inhabits with
      | null nullable => cases nullable
      | int | char => cases isNull
  cases lit with
  | null => exact null
  | const c =>
      rw [check_prim_const (sound c (List.mem_singleton_self c)), Literal.inlined]
      cases c.value with
      | null => exact null
      | _ => exact Primitive.check_int_iff
  | list items | map entries =>
      rw [check_prim rfl, Primitive.check_int_iff]
      refine and_congr_left fun inhabits => ?_
      cases inhabits with
      | null nullable => cases nullable
      | int | char => simp [Literal.inlined, Literal.ofValue]
  | _ => exact Primitive.check_int_iff

/-- A value of an integer type is a number of its range, unless it is a character that does not fit
16 bits. -/
theorem Inhabits.asInt?_iff (inhabits : (prim (.int w)).Inhabits v) :
    ∃ n, v.asInt? = some n ∧
      (w.min ≤ n ∧ n ≤ w.max ↔ ¬ (w = .w16 ∧ ∃ c, v = .char c ∧ 0x7fff < c.toNat)) := by
  cases inhabits with
  | null nullable => cases nullable
  | int low high => exact ⟨_, rfl, by simp [low, high]⟩
  | @char _ c ascii =>
      have codePoint : c.toNat < 0x110000 := by
        rcases c.valid with low | ⟨_, high⟩
        · exact Nat.lt_trans low (by decide)
        · exact high
      refine ⟨c.toNat, rfl, ?_⟩
      cases w <;> simp [IntWidth.min, IntWidth.max, IntWidth.bits] at ascii ⊢ <;> omega

/-- An integer type holds only numbers of its range, unless it has 16 bits and the literal is a
character that does not fit them, or a constant that holds one. -/
theorem holds_range_iff (space : TypeSpace) (w : IntWidth) {lit : Literal}
    (built : lit.Built space) :
    (∀ v, (prim (.int w)).check lit = .ok v →
        ∃ n, v.asInt? = some n ∧ w.min ≤ n ∧ n ≤ w.max) ↔
      ¬ (w = .w16 ∧ ∃ c, lit.inlined = .char c ∧ 0x7fff < c.toNat) := by
  have accepts : ∀ v, (prim (.int w)).check lit = .ok v ↔
      lit.inlined = Literal.ofValue v ∧ (prim (.int w)).Inhabits v := fun v =>
    check_int_iff fun c inside => (built c inside).sound
  constructor
  · rintro all ⟨rfl, c, isChar, far⟩
    have inhabits : (prim (.int .w16)).Inhabits (.char c) := .char (by simp)
    obtain ⟨n, number, range⟩ := all (.char c) ((accepts _).mpr ⟨isChar, inhabits⟩)
    obtain ⟨n', number', fits⟩ := inhabits.asInt?_iff
    cases number.symm.trans number'
    exact fits.mp range ⟨rfl, c, rfl, far⟩
  · intro fitting v accepted
    obtain ⟨inlined, inhabits⟩ := (accepts v).mp accepted
    obtain ⟨n, number, fits⟩ := inhabits.asInt?_iff
    refine ⟨n, number, fits.mpr ?_⟩
    rintro ⟨narrow, c, rfl, far⟩
    exact fitting ⟨narrow, c, inlined, far⟩

/-- A constant of 32 bits holds the first character that does not fit 16 bits. A number of the same
size is refused as a number of 16 bits, the constant is not. -/
theorem character_beyond_range :
    let far := Char.ofNat 0x8000
    let lit := Literal.const ⟨some "m", "FAR", prim (.int .w32), .char far, none⟩
    (prim (.int .w16)).check (.int 0x8000) = .error (.outOfRange "i16" "32768") ∧
      (prim (.int .w16)).check lit = .ok (.char far) ∧
      (Value.char far).asInt? = some 0x8000 ∧ IntWidth.w16.max < 0x8000 ∧
      ¬ ∀ v, (prim (.int .w16)).check lit = .ok v →
        ∃ n, v.asInt? = some n ∧ IntWidth.w16.min ≤ n ∧ n ≤ IntWidth.w16.max := by
  intro far lit
  let space := ModelSet.WellFormed.empty.space
  have built : lit.Built space := by
    intro c inside
    cases List.mem_singleton.mp inside
    exact .intro (.char far) (.inl (ModelSet.WellFormed.empty.primitive (.int .w32) (by decide)))
      (fun c none => absurd none List.not_mem_nil) rfl
  refine ⟨rfl, rfl, rfl, by decide, fun all => ?_⟩
  exact (holds_range_iff space .w16 built).mp all ⟨rfl, far, rfl, by decide⟩

end Ty

end IdlGen
