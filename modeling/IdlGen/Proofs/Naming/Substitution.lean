import IdlGen.Naming
import IdlGen.Proofs.Token.Pattern

/-!
# Bars by substitution

A substitution puts a bar between the two groups of a pattern, in all matches from left to right. A
match reads the letters on both sides of its bar, so they cannot be part of the next one.

The two passes over a name go character by character and never look back for a match. They make the
same substitutions all the same: what has been passed is either part of the match that comes to its
end, or of no use to any match.
-/

namespace IdlGen

namespace Pattern

/-- The preferred way through two groups in a row: what the first one leaves of a text, and what
both of them leave. -/
def groups? (p q : Pattern) (cs : List Char) : Option (List Char × List Char) :=
  ((p.ends cs).flatMap fun middle => (q.ends middle).map (middle, ·)).head?

/-- In each match of two groups in a row, a bar is put between them. Matches are found from the
left, and the search goes on behind them. -/
inductive Bars (p q : Pattern) : List Char → List Char → Prop
  | stop (absent : p.groups? q [] = none) : Bars p q [] []
  | miss {c : Char} {cs out : List Char} (absent : p.groups? q (c :: cs) = none)
      (more : Bars p q cs out) : Bars p q (c :: cs) (c :: out)
  | hit {first second rest out : List Char} (nonempty : first ++ second ≠ [])
      (found : p.groups? q (first ++ (second ++ rest)) = some (second ++ rest, rest))
      (more : Bars p q rest out) :
      Bars p q (first ++ (second ++ rest)) (first ++ '_' :: (second ++ out))

variable {p q : Pattern} {test stop : Char → Bool} {c : Char} {cs rest : List Char}

@[simp] theorem isSome_first?_char : ((char test).first? cs).isSome = cs.head?.any test := by
  cases cs with
  | nil => rfl
  | cons c rest => by_cases accepted : test c <;> simp [accepted]

theorem first?_char_eq_some (read : (char test).first? cs = some rest) :
    ∃ c, cs = c :: rest ∧ test c = true := by
  cases cs with
  | nil => cases read
  | cons c left =>
      rw [first?_char_cons] at read
      split at read
      · next accepted => exact ⟨c, congrArg _ (Option.some.inj read), accepted⟩
      · cases read

theorem groups?_nil_of_shrinks (shrinks : p.Shrinks) : p.groups? q [] = none := by
  have stuck : p.ends [] = [] :=
    List.eq_nil_iff_forall_not_mem.mpr fun r left => absurd (shrinks [] r left) (Nat.not_lt_zero _)
  rw [groups?, stuck]
  rfl

@[simp] theorem groups?_char_cons : (char test).groups? q (c :: rest) =
    if test c then (q.first? rest).map (rest, ·) else none := by
  by_cases accepted : test c
  · simp [groups?, first?, accepted]
  · simp [groups?, accepted]

@[simp] theorem groups?_seq_char_cons : (seq (char test) p).groups? q (c :: rest) =
    if test c then p.groups? q rest else none := by
  by_cases accepted : test c
  · simp [groups?, accepted]
  · simp [groups?, accepted]

/-- A run of characters is read in full before a character that is not one of them. -/
@[simp] theorem groups?_many_char (other : ∀ c, test c = true → stop c = false) :
    (many (char test)).groups? (char stop) cs =
      ((char stop).first? (cs.dropWhile test)).map (cs.dropWhile test, ·) := by
  induction cs with
  | nil => rfl
  | cons c rest ih =>
      rw [groups?, ends_many shrinks_char, List.flatMap_append, List.head?_append]
      by_cases accepted : test c
      · rw [List.dropWhile_cons_of_pos accepted, ← ih]
        simp [groups?, accepted, other c accepted]
      · rw [List.dropWhile_cons_of_neg accepted]
        by_cases stops : stop c
        · simp [accepted, stops]
        · simp [accepted, stops]

/-- A substitution has one outcome. -/
theorem Bars.unique {a b : List Char} (left : Bars p q cs a) (right : Bars p q cs b) : a = b := by
  induction left generalizing b with
  | stop _ =>
      generalize empty : ([] : List Char) = cs at right
      cases right with
      | stop _ => rfl
      | miss _ _ => cases empty
      | hit nonempty _ _ => simp_all
  | @miss c cs out absent _ ih =>
      generalize front : c :: cs = whole at right absent
      cases right with
      | stop _ => cases front
      | miss _ more =>
          cases front
          rw [ih more]
      | hit _ found _ =>
          rw [found] at absent
          cases absent
  | @hit first second rest out nonempty found _ ih =>
      generalize front : first ++ (second ++ rest) = whole at right found
      cases right with
      | stop _ => simp_all
      | miss absent _ =>
          rw [absent] at found
          cases found
      | hit _ found' more =>
          -- What is left behind the groups tells where they end.
          rw [found'] at found
          obtain ⟨middle, rfl⟩ := Prod.mk.inj (Option.some.inj found)
          obtain rfl := List.append_cancel_right middle
          obtain rfl := List.append_cancel_right front
          rw [ih more]

/-- What one step of a function does, at the front of a text, for a substitution. -/
inductive BarStep (p q : Pattern) (f : List Char → List Char) : List Char → Prop
  | miss {c : Char} {cs : List Char} (absent : p.groups? q (c :: cs) = none)
      (kept : f (c :: cs) = c :: f cs) : BarStep p q f (c :: cs)
  | hit {first second rest : List Char} (nonempty : first ++ second ≠ [])
      (found : p.groups? q (first ++ (second ++ rest)) = some (second ++ rest, rest))
      (barred : f (first ++ (second ++ rest)) = first ++ '_' :: (second ++ f rest)) :
      BarStep p q f (first ++ (second ++ rest))

/-- A function that puts the bars of a match at the front, if there is one, makes the
substitution. -/
theorem bars_of_step {f : List Char → List Char} (shrinks : p.Shrinks) (empty : f [] = [])
    (step : ∀ c cs, BarStep p q f (c :: cs)) (cs : List Char) : Bars p q cs (f cs) := by
  -- On the length, as a match may take any number of characters.
  induction size : cs.length using Nat.strongRecOn generalizing cs with
  | ind n ih =>
      cases cs with
      | nil =>
          rw [empty]
          exact .stop (groups?_nil_of_shrinks shrinks)
      | cons c rest =>
          have here := step c rest
          generalize c :: rest = cs at here size
          cases here with
          | @miss c cs absent kept =>
              rw [kept]
              exact .miss absent (ih cs.length (by simp [← size]) cs rfl)
          | @hit first second rest nonempty found barred =>
              have shorter : rest.length < n := by
                have := List.length_pos_iff.mpr nonempty
                simp only [List.length_append] at this size
                omega
              rw [barred]
              exact .hit nonempty found (ih _ shorter rest rfl)

end Pattern

namespace Naming

open Pattern

variable {c : Char} {cs rest : List Char}

theorem between_iff {first last : Char} :
    (decide (first ≤ c) && decide (c ≤ last)) = true ↔
      first.toNat ≤ c.toNat ∧ c.toNat ≤ last.toNat := by
  rw [Bool.and_eq_true, decide_eq_true_eq, decide_eq_true_eq]
  exact and_congr UInt32.le_iff_toNat_le UInt32.le_iff_toNat_le

theorem isSmall_iff : isSmall c = true ↔ 97 ≤ c.toNat ∧ c.toNat ≤ 122 := between_iff

theorem isCapital_iff : isCapital c = true ↔ 65 ≤ c.toNat ∧ c.toNat ≤ 90 := between_iff

theorem isDigit_iff : isDigit c = true ↔ 48 ≤ c.toNat ∧ c.toNat ≤ 57 := between_iff

theorem others_of_isCapital (upper : isCapital c = true) :
    isSmall c = false ∧ isDigit c = false := by
  rw [isCapital_iff] at upper
  rw [← Bool.not_eq_true, ← Bool.not_eq_true, isSmall_iff, isDigit_iff]
  omega

theorem not_isCapital_of_isSmall (small : isSmall c = true) : isCapital c = false := by
  rw [isSmall_iff] at small
  rw [← Bool.not_eq_true, isCapital_iff]
  omega

theorem others_of_isDigit (digit : isDigit c = true) :
    isSmall c = false ∧ isCapital c = false := by
  rw [isDigit_iff] at digit
  rw [← Bool.not_eq_true, ← Bool.not_eq_true, isSmall_iff, isCapital_iff]
  omega

/-- A small letter with the digits after it. -/
def smallRun : Pattern := seq (char isSmall) (many (char isDigit))

def capital : Pattern := char isCapital

/-- A capital with a small letter after it. -/
def capitalWord : Pattern := seq (char isCapital) (char isSmall)

theorem groups?_smallRun : smallRun.groups? capital (c :: rest) =
    if isSmall c then
      (capital.first? (rest.dropWhile isDigit)).map (rest.dropWhile isDigit, ·)
    else none := by
  have other (d : Char) (digit : isDigit d = true) : isCapital d = false :=
    (others_of_isDigit digit).2
  rw [smallRun, groups?_seq_char_cons, capital, groups?_many_char other]

theorem groups?_capital : capital.groups? capitalWord (c :: rest) =
    if isCapital c then (capitalWord.first? rest).map (rest, ·) else none :=
  groups?_char_cons

theorem capitalWord_eq_some (read : capitalWord.first? cs = some rest) :
    ∃ c d, cs = c :: d :: rest ∧ isCapital c = true ∧ isSmall d = true := by
  cases cs with
  | nil => cases read
  | cons c left =>
      rw [capitalWord, first?_seq_char_cons] at read
      split at read
      · next upper =>
          obtain ⟨d, rfl, small⟩ := first?_char_eq_some read
          exact ⟨c, d, rfl, upper, small⟩
      · cases read

/-- Up to a capital behind digits, a small letter before them is as good as right before it. -/
theorem splitSmall_true_append {digits : List Char} (all : ∀ d ∈ digits, isDigit d = true)
    (upper : isCapital c = true) :
    splitSmall true (digits ++ c :: rest) = digits ++ '_' :: c :: splitSmall false rest := by
  induction digits with
  | nil =>
      simp [splitSmall, upper, others_of_isCapital upper]
  | cons d digits ih =>
      obtain ⟨digit, all⟩ := List.forall_mem_cons.mp all
      rw [List.cons_append, splitSmall]
      simp [digit, others_of_isDigit digit, ih all]

/-- A small letter is of no use if there is no capital behind it and its digits. -/
theorem splitSmall_true_eq_false (absent : capital.first? (cs.dropWhile isDigit) = none) :
    splitSmall true cs = splitSmall false cs := by
  induction cs with
  | nil => rfl
  | cons c rest ih =>
      rw [splitSmall, splitSmall]
      by_cases digit : isDigit c = true
      · rw [List.dropWhile_cons_of_pos digit] at absent
        simp [digit, others_of_isDigit digit, ih absent]
      · rw [List.dropWhile_cons_of_neg digit, capital, first?_char_cons] at absent
        have lower : isCapital c = false := by simpa using absent
        simp [digit, lower]

theorem splitSmall_step (c : Char) (rest : List Char) :
    BarStep smallRun capital (splitSmall false) (c :: rest) := by
  -- A match starts here just if a capital ends the digits behind a small letter.
  by_cases small : isSmall c = true
  · have split : splitSmall false (c :: rest) = c :: splitSmall true rest := by
      simp [splitSmall, small]
    cases found : capital.first? (rest.dropWhile isDigit) with
    | none =>
        refine .miss ?_ ?_
        · rw [groups?_smallRun, found, if_pos small]
          rfl
        · rw [split, splitSmall_true_eq_false found]
    | some left =>
        obtain ⟨d, behind, upper⟩ := first?_char_eq_some found
        obtain ⟨digits, all, rfl⟩ : ∃ digits : List Char,
            (∀ x ∈ digits, isDigit x = true) ∧ rest = digits ++ d :: left :=
          ⟨rest.takeWhile isDigit, List.all_eq_true.mp List.all_takeWhile,
            by rw [← behind, List.takeWhile_append_dropWhile]⟩
        change BarStep _ _ _ ((c :: digits) ++ ([d] ++ left))
        refine .hit (by simp) ?_ ?_
        · change smallRun.groups? capital (c :: (digits ++ d :: left)) = _
          rw [groups?_smallRun, if_pos small, found, behind]
          rfl
        · exact split.trans (congrArg (c :: ·) (splitSmall_true_append all upper))
  · refine .miss ?_ (by simp [splitSmall, small])
    rw [groups?_smallRun, if_neg small]

/-- A capital is of no use if there is no other one with a small letter behind it. -/
theorem splitCapitals_true_eq_false (absent : capitalWord.first? cs = none) :
    splitCapitals true cs = splitCapitals false cs := by
  cases cs with
  | nil => rfl
  | cons c rest =>
      have lone : (isCapital c && rest.head?.any isSmall) = false := by
        rw [capitalWord, first?_seq_char_cons] at absent
        by_cases upper : isCapital c = true
        · rw [if_pos upper] at absent
          rw [upper, ← isSome_first?_char, absent]
          rfl
        · simp [upper]
      simp [splitCapitals, lone]

theorem splitCapitals_step (c : Char) (rest : List Char) :
    BarStep capital capitalWord (splitCapitals false) (c :: rest) := by
  -- A match starts here just if a capital with a small letter is behind another one.
  by_cases upper : isCapital c = true
  · have split : splitCapitals false (c :: rest) = c :: splitCapitals true rest := by
      simp [splitCapitals, upper]
    cases found : capitalWord.first? rest with
    | none =>
        refine .miss ?_ ?_
        · rw [groups?_capital, found, if_pos upper]
          rfl
        · rw [split, splitCapitals_true_eq_false found]
    | some left =>
        obtain ⟨d, e, rfl, upper', small⟩ := capitalWord_eq_some found
        have bar : splitCapitals true (d :: e :: left) =
            '_' :: d :: e :: splitCapitals false left := by
          simp [splitCapitals, upper', small, not_isCapital_of_isSmall small]
        change BarStep _ _ _ ([c] ++ ([d, e] ++ left))
        refine .hit (by simp) ?_ (split.trans (congrArg (c :: ·) bar))
        change capital.groups? capitalWord (c :: d :: e :: left) = _
        rw [groups?_capital, if_pos upper, found]
        rfl
  · refine .miss ?_ (by simp [splitCapitals, upper])
    rw [groups?_capital, if_neg upper]

/-- The first pass puts the bars between a small letter, with its digits, and a capital. -/
theorem splitSmall_bars (cs : List Char) : Bars smallRun capital cs (splitSmall false cs) :=
  bars_of_step shrinks_char.seq rfl splitSmall_step cs

/-- The second pass puts the bars between a capital and another one with a small letter. -/
theorem splitCapitals_bars (cs : List Char) :
    Bars capital capitalWord cs (splitCapitals false cs) :=
  bars_of_step shrinks_char rfl splitCapitals_step cs

end Naming

end IdlGen
