import IdlGen.Text.Case

/-!
# Small letters of ASCII texts

Tables of case cover all of Unicode, but only their first runs reach below 128. A character there
has one image, and in small letters a text is what its characters are one by one.
-/

namespace IdlGen.Text

variable {c : Char} {cs : List Char}

theorem CaseRun.image?_of_lt {run : CaseRun} {n : Nat} (before : n < run.first) :
    run.image? n = none := by
  have outside : ¬ run.first ≤ n := Nat.not_le.mpr before
  simp [image?, outside]

/-- A character has no expansion if only wide characters have one. -/
theorem mapCase_of_ascii {expansions : List (Nat × List Nat)} {runs : List CaseRun}
    (wide : ∀ expansion ∈ expansions, 128 ≤ expansion.1) (ascii : c.toNat < 128) :
    mapCase expansions runs c = [((runs.findSome? (·.image? c.toNat)).map Char.ofNat).getD c] := by
  have single : expansions.lookup c.toNat = none := by
    refine List.lookup_eq_none_iff.mpr fun expansion member => ?_
    exact bne_iff_ne.mpr (Nat.ne_of_lt (Nat.lt_of_lt_of_le ascii (wide expansion member)))
  rw [mapCase, single]

@[simp] theorem lowerChar_of_ascii (ascii : c.toNat < 128) : lowerChar c = [c.toLower] := by
  let letters : CaseRun := ⟨0x41, 0x5A, 1, 0x61⟩
  have others : lowerRuns.tail.findSome? (·.image? c.toNat) = none := by
    refine List.findSome?_eq_none_iff.mpr fun run member => ?_
    have wide : ∀ run ∈ lowerRuns.tail, 128 ≤ run.first := by decide +kernel
    exact CaseRun.image?_of_lt (Nat.lt_of_lt_of_le ascii (wide run member))
  have runs : lowerRuns.findSome? (·.image? c.toNat) = letters.image? c.toNat := by
    change (letters :: lowerRuns.tail).findSome? _ = _
    rw [List.findSome?_cons, others]
    cases letters.image? c.toNat with
    | none => rfl
    | some image => rfl
  have table : ∀ n < 128, ((letters.image? n).map Char.ofNat).getD (Char.ofNat n) =
      (Char.ofNat n).toLower := by decide
  have lower := table c.toNat ascii
  rw [Char.ofNat_toNat] at lower
  rw [lowerChar, mapCase_of_ascii (by decide) ascii, runs, lower]

/-- Whether all characters are ASCII characters. -/
def isAscii (cs : List Char) : Bool := cs.all (·.toNat < 128)

@[simp] theorem lowerAfter_of_ascii (ascii : isAscii cs = true) (before : List Char) :
    lowerAfter before cs = cs.map Char.toLower := by
  induction cs generalizing before with
  | nil => rfl
  | cons c cs ih =>
      obtain ⟨here, ascii⟩ : c.toNat < 128 ∧ isAscii cs = true := by
        simpa [isAscii] using ascii
      have sigma : c ≠ 'Σ' := by
        rintro rfl
        exact absurd here (by decide)
      rw [lowerAfter, if_neg sigma, lowerChar_of_ascii here, ih ascii]
      rfl

end IdlGen.Text
