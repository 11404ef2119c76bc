import IdlGen.Proofs.Token.Lexing

/-!
# Where comments end

A comment goes to the first end mark behind its opening. A documentation comment opens with one
character more than a plain one, and it is tried first, so the two alternatives disagree about the
end of a comment whose end mark follows `/*` at once: if the text has another end mark further on,
everything up to that one is taken for documentation.
-/

namespace IdlGen

/-- An end mark stands at an offset of a text. -/
def Closes (cs : List Char) (k : Nat) : Prop := ['*', '/'] <+: cs.drop k

instance (cs : List Char) (k : Nat) : Decidable (Closes cs k) :=
  inferInstanceAs (Decidable (_ <+: _))

/-- The first end mark at `start` or further on stands at `k`. -/
structure FirstClose (cs : List Char) (start k : Nat) : Prop where
  behind : start ≤ k
  closes : Closes cs k
  first : ∀ m, start ≤ m → Closes cs m → k ≤ m

variable {cs : List Char}

/-- An end mark has its place in the text. -/
theorem Closes.length_le {k : Nat} (closes : Closes cs k) : k + 2 ≤ cs.length := by
  have size := List.IsPrefix.length_le closes
  simp only [List.length_drop, List.length_cons, List.length_nil] at size
  omega

@[simp]
theorem closes_drop (cs : List Char) (i k : Nat) : Closes (cs.drop i) k ↔ Closes cs (i + k) := by
  rw [Closes, Closes, List.drop_drop]

@[simp] theorem firstClose_drop (cs : List Char) (i start k : Nat) :
    FirstClose (cs.drop i) start k ↔ FirstClose cs (i + start) (i + k) := by
  constructor
  · intro h
    refine ⟨Nat.add_le_add_left h.behind i, (closes_drop cs i k).1 h.closes, ?_⟩
    intro m behind closes
    have shifted : m = i + (m - i) := by omega
    rw [shifted] at closes
    have := h.first (m - i) (by omega) ((closes_drop cs i _).2 closes)
    omega
  · intro h
    refine ⟨by have := h.behind; omega, (closes_drop cs i k).2 h.closes, ?_⟩
    intro m behind closes
    have := h.first (i + m) (by omega) ((closes_drop cs i m).1 closes)
    omega

/-- One mark further on is the first, if none stands before it. -/
theorem FirstClose.extend {start k : Nat} (h : FirstClose cs (start + 1) k)
    (unmarked : ¬ Closes cs start) : FirstClose cs start k := by
  refine ⟨Nat.le_of_succ_le h.behind, h.closes, ?_⟩
  intro m behind closes
  apply h.first m _ closes
  have different : start ≠ m := fun same => unmarked (same ▸ closes)
  omega

@[simp] theorem not_closes_nil (k : Nat) : ¬ Closes [] k := by
  simp [Closes]

/-- Looking for an end mark, by what the marks of the text are. -/
theorem Shape.beforeClose?_spec (cs : List Char) :
    (∀ n, Shape.beforeClose? cs = some n → FirstClose cs 0 n) ∧
      (Shape.beforeClose? cs = none → ∀ m, ¬ Closes cs m) := by
  fun_induction Shape.beforeClose? cs with
  | case1 rest =>
      refine ⟨fun n found => ?_, fun missing => by cases missing⟩
      cases found
      exact ⟨Nat.le_refl 0, ⟨rest, rfl⟩, fun m _ _ => Nat.zero_le m⟩
  | case2 c rest notHere ih =>
      have unclosed : ¬ Closes (c :: rest) 0 := by
        rintro ⟨back, same⟩
        cases same
        exact notHere back rfl rfl
      constructor
      · intro n found
        obtain ⟨k, before, rfl⟩ := Option.map_eq_some_iff.1 found
        have later : FirstClose ((c :: rest).drop 1) 0 k := ih.1 k before
        rw [firstClose_drop, Nat.add_comm 1 k] at later
        exact later.extend unclosed
      · intro missing m
        cases m with
        | zero => exact unclosed
        | succ m => exact ih.2 (Option.map_eq_none_iff.1 missing) m
  | case3 => exact ⟨fun n found => absurd found (by simp), fun _ => not_closes_nil⟩

/-- A comment is read to the first end mark behind its opening; without one there is none. -/
theorem Shape.comment_spec (opening cs : List Char) :
    (∀ n, Shape.comment opening cs = n + 1 →
      opening <+: cs ∧ ∃ k, n + 1 = k + 2 ∧ FirstClose cs opening.length k) ∧
    (Shape.comment opening cs = 0 → opening <+: cs →
      ∀ m, opening.length ≤ m → ¬ Closes cs m) := by
  obtain ⟨found, missing⟩ := Shape.beforeClose?_spec (cs.drop opening.length)
  unfold Shape.comment
  by_cases opened : opening <+: cs
  · rw [if_pos opened]
    cases before : Shape.beforeClose? (cs.drop opening.length) with
    | none =>
        refine ⟨fun n impossible => absurd impossible (by simp), fun _ _ m behind closes => ?_⟩
        apply missing before (m - opening.length)
        rw [closes_drop, Nat.add_sub_cancel' behind]
        exact closes
    | some k =>
        have ends := (firstClose_drop cs opening.length 0 k).1 (found k before)
        refine ⟨fun n length => ⟨opened, opening.length + k, ?_, ends⟩, ?_⟩
        · exact length.symm
        · intro impossible
          exact absurd impossible (by simp)
  · rw [if_neg opened]
    exact ⟨fun n impossible => absurd impossible (by simp), fun _ here => absurd here opened⟩

/-- The first rule wins if its shape matches, and otherwise the rules after it are tried. -/
@[simp]
theorem LexRules.first?_cons_eq_some_iff {r : LexRule} {rules : LexRules} {kind : LexemeKind}
    {n : Nat} : LexRules.first? (r :: rules) cs = some (kind, n) ↔
      r.kind = kind ∧ r.shape cs = n + 1 ∨
        r.shape cs = 0 ∧ LexRules.first? rules cs = some (kind, n) := by
  unfold LexRules.first?
  rw [List.findSome?_cons]
  cases r.shape cs with
  | zero => simp
  | succ m => simp

namespace Language

variable {lang : Language}

/-- The class of a comment says which shapes were tried in vain. -/
theorem comment_of_first? {kind : LexemeKind} {n : Nat}
    (found : lang.rules.first? cs = some (kind, n)) :
    (kind = .docComment → Shape.docComment cs = n + 1) ∧
      (kind = .blockComment → Shape.docComment cs = 0 ∧ Shape.blockComment cs = n + 1) := by
  obtain ⟨others, split, tokens⟩ : ∃ others : LexRules,
      lang.rules = LexRules.layout ++ others ∧ ∀ r ∈ others, ∃ token, r.kind = .token token := by
    cases lang with
    | definitions => exact ⟨_, rfl, by simp⟩
    | specs => exact ⟨_, rfl, by simp⟩
  rw [split, LexRules.layout] at found
  simp only [List.cons_append, List.nil_append, LexRules.first?_cons_eq_some_iff] at found
  obtain ⟨rfl, _⟩ | ⟨_, ⟨rfl, doc⟩ | ⟨noDoc, ⟨rfl, block⟩ | ⟨_, ⟨rfl, _⟩ | ⟨_, found⟩⟩⟩⟩ := found
  · simp
  · simp [doc]
  · simp [noDoc, block]
  · simp
  · obtain ⟨r, listed, reads⟩ := List.exists_of_findSome?_eq_some found
    obtain ⟨token, isToken⟩ := tokens r listed
    have same : r.kind = kind := by
      split at reads
      · cases reads
      · exact congrArg Prod.fst (Option.some.inj reads)
    simp [← same, isToken]

end Language

/-- The end mark of the comment at `i` follows its opening at once, and there is another one further
on. -/
def Swallows (cs : List Char) (i : Nat) : Prop :=
  Closes cs (i + 2) ∧ ∃ m, i + 2 < m ∧ Closes cs m

@[simp]
theorem swallows_drop (cs : List Char) (i : Nat) : Swallows (cs.drop i) 0 ↔ Swallows cs i := by
  constructor
  · rintro ⟨closes, m, behind, again⟩
    exact ⟨(closes_drop cs i 2).1 closes, i + m, by omega, (closes_drop cs i m).1 again⟩
  · rintro ⟨closes, m, behind, again⟩
    have shifted : m = i + (m - i) := by omega
    rw [shifted] at again
    exact ⟨(closes_drop cs i 2).2 closes, m - i, by omega, (closes_drop cs i _).2 again⟩

/-- A comment that goes to the first mark behind three characters goes to the first behind two,
unless it swallows one. -/
theorem FirstClose.iff_of_doc {k : Nat} (ends : FirstClose cs 3 k) :
    (FirstClose cs 2 k ↔ ¬ Swallows cs 0) ∧ (Swallows cs 0 → FirstClose cs 3 k) := by
  refine ⟨⟨fun first swallows => ?_, fun plain => ?_⟩, fun _ => ends⟩
  · have atOnce := first.first 2 (Nat.le_refl 2) swallows.1
    have behind := ends.behind
    omega
  · apply ends.extend
    intro closes
    exact plain ⟨closes, k, ends.behind, ends.closes⟩

namespace Language

variable {lang : Language}

/-- A comment in front of a text. -/
theorem comment_ends {kind : LexemeKind} {n : Nat}
    (found : lang.rules.first? cs = some (kind, n))
    (comment : kind = .docComment ∨ kind = .blockComment) :
    ['/', '*'] <+: cs ∧ ∃ k, n + 1 = k + 2 ∧ (FirstClose cs 2 k ↔ ¬ Swallows cs 0) ∧
      (Swallows cs 0 → FirstClose cs 3 k) := by
  obtain ⟨ofDoc, ofBlock⟩ := comment_of_first? found
  have docs := Shape.comment_spec ['/', '*', '*'] cs
  rw [← Shape.docComment_eq] at docs
  obtain rfl | rfl := comment
  · obtain ⟨opened, k, length, ends⟩ := docs.1 n (ofDoc rfl)
    exact ⟨(List.prefix_append ['/', '*'] ['*']).trans opened, k, length, ends.iff_of_doc⟩
  · obtain ⟨noDoc, block⟩ := ofBlock rfl
    rw [Shape.blockComment_eq] at block
    obtain ⟨opened, k, length, ends⟩ := (Shape.comment_spec ['/', '*'] cs).1 n block
    have plain : ¬ Swallows cs 0 := by
      rintro ⟨closes, m, behind, again⟩
      obtain ⟨rest, rfl⟩ := opened
      obtain ⟨back, same⟩ := closes
      have opened : ['/', '*', '*'] <+: ['/', '*'] ++ rest :=
        ⟨'/' :: back, congrArg (['/', '*'] ++ ·) same⟩
      exact docs.2 noDoc opened m behind again
    exact ⟨opened, k, length, iff_of_true ends plain, fun swallows => absurd swallows plain⟩

/-- A comment goes to the first end mark behind the two characters of its opening, with one
exception. If such a mark follows at once, and there is another one anywhere in the text behind it,
then the comment goes on to the first of the others. -/
theorem comment_ends_first_iff (lang : Language) (text : String) {front back : List Lexeme}
    {l : Lexeme} {i : Nat} (lexemes : (lang.rules.scan text.toList).1 = front ++ l :: back)
    (comment : l.kind = .docComment ∨ l.kind = .blockComment)
    (start : i = (Lexeme.spell front).length) :
    ['/', '*'] <+: text.toList.drop i ∧ ∃ k, i + l.text.length = k + 2 ∧
      (FirstClose text.toList (i + 2) k ↔ ¬ Swallows text.toList i) ∧
      (Swallows text.toList i → FirstClose text.toList (i + 3) k) := by
  have cut := (lang.scan_cut text.toList).1
  rw [lexemes] at cut
  obtain ⟨more, split, chosen⟩ := cut.chosen
  have behind : text.toList.drop i = l.text ++ more := by
    rw [split, start, List.drop_left]
  rw [lang.choose?_eq] at chosen
  obtain ⟨⟨kind, n⟩, found, same⟩ := Option.map_eq_some_iff.1 chosen
  obtain ⟨sameKind, sameRest⟩ := Prod.mk.inj same
  rw [← behind] at found
  obtain ⟨opened, k, length, first, second⟩ := comment_ends found (by
    rwa [← sameKind] at comment)
  have closes : Closes (text.toList.drop i) k := by
    by_cases swallows : Swallows (text.toList.drop i) 0
    · exact (second swallows).closes
    · exact (first.2 swallows).closes
  -- the mark lies in the text, so what was read is no shorter than it should be
  have size : l.text.length = k + 2 := by
    have inside := closes.length_le
    have taken := congrArg List.length sameRest
    simp only [behind, List.length_append, List.length_drop] at inside taken
    omega
  refine ⟨opened, i + k, by omega, ?_, ?_⟩
  · rw [← firstClose_drop, ← swallows_drop]
    exact first
  · rw [← firstClose_drop, ← swallows_drop]
    exact second

/-- A declaration between two comments is lost, because the first of them is closed at once. -/
theorem declaration_swallowed :
    (definitions.rules.scan "/**/ const i32 A = 1 /* x */".toList).1 =
        [⟨.docComment, "/**/ const i32 A = 1 /* x */".toList⟩] ∧
      Closes "/**/ const i32 A = 1 /* x */".toList 2 ∧
      ¬ FirstClose "/**/ const i32 A = 1 /* x */".toList 2 26 ∧
      FirstClose "/**/ const i32 A = 1 /* x */".toList 3 26 := by
  have lexemes : (definitions.rules.scan "/**/ const i32 A = 1 /* x */".toList).1 =
      [] ++ ⟨.docComment, "/**/ const i32 A = 1 /* x */".toList⟩ :: [] := by decide +kernel
  have swallows : Swallows "/**/ const i32 A = 1 /* x */".toList 0 :=
    ⟨by decide +kernel, 26, by decide, by decide +kernel⟩
  obtain ⟨_, k, length, first, second⟩ :=
    comment_ends_first_iff definitions "/**/ const i32 A = 1 /* x */" lexemes (.inl rfl) rfl
  have size : "/**/ const i32 A = 1 /* x */".toList.length = 28 := by decide +kernel
  obtain rfl : k = 26 := by
    simp only [Lexeme.spell, List.flatMap_nil, List.length_nil, size] at length
    omega
  exact ⟨lexemes, swallows.1, fun ends => first.1 ends swallows, second swallows⟩

end Language

end IdlGen
