import IdlGen.Proofs.Token.Shapes

/-!
# Patterns do not look ahead

A pattern sees no more of a text than it reads. So its ways to read a piece of text are the same
whatever stands behind the piece, and they are tried in the same order; what stands behind can only
add ways that go on into it. Where it starts with a character that the pattern never reads, it adds
none, and the pattern reads what it would read of the piece alone.
-/

namespace IdlGen.Pattern

variable {p q : Pattern} {cs piece behind more rest : List Char} {bad : Char → Prop}

/-- Every repetition goes on as long as it can, and each of its rounds reads something. -/
def Greedy : Pattern → Prop
  | nothing => True
  | char _ => True
  | seq p q => p.Greedy ∧ q.Greedy
  | either p q => p.Greedy ∧ q.Greedy
  | many p => p.Shrinks ∧ p.Greedy
  | few _ => False

/-- The ways that leave all of what stands behind, among those that leave anything. -/
def keeping (behind : List Char) (ends : List (List Char)) : List (List Char) :=
  ends.filter fun left => behind.length ≤ left.length

/-- A way that has gone on into what stands behind does not come back. -/
theorem keeping_ends_of_short {r : List Char} (short : r.length < behind.length) :
    keeping behind (q.ends r) = [] := by
  refine List.filter_eq_nil_iff.mpr fun left member => ?_
  have size := (suffix_of_mem_ends member).length_le
  simp only [decide_eq_true_eq]
  omega

/-- Of two steps in a row both have to stay inside. -/
theorem keeping_flatMap_ends {firsts insides : List (List Char)}
    (first : keeping behind firsts = insides.map (· ++ behind))
    (second : ∀ r ∈ insides, keeping behind (q.ends (r ++ behind)) = (q.ends r).map (· ++ behind)) :
    keeping behind (firsts.flatMap q.ends) = (insides.flatMap q.ends).map (· ++ behind) := by
  have inside : keeping behind (firsts.flatMap q.ends) =
      (keeping behind firsts).flatMap fun r => keeping behind (q.ends r) := by
    clear first
    induction firsts with
    | nil => rfl
    | cons r firsts ih =>
        simp only [keeping, List.flatMap_cons, List.filter_append, List.filter_cons,
          decide_eq_true_eq] at ih ⊢
        split
        · rw [ih, List.flatMap_cons]
        · next short =>
            have gone : keeping behind (q.ends r) = [] := keeping_ends_of_short (by omega)
            rw [ih]
            exact congrArg (· ++ _) gone
  rw [inside, first, List.flatMap_map, List.map_flatMap]
  exact List.flatMap_congr second

/-- The ways through a piece of text are those ways through a longer text that leave all of the
rest, in the same order. -/
theorem keeping_ends_append (greedy : p.Greedy) (piece behind : List Char) :
    keeping behind (p.ends (piece ++ behind)) = (p.ends piece).map (· ++ behind) := by
  induction p generalizing piece with
  | nothing => simp [keeping, ends]
  | char test =>
      cases piece with
      | nil =>
          refine List.filter_eq_nil_iff.mpr fun left member => ?_
          have shorter := shrinks_char _ left member
          simp only [List.nil_append] at shorter
          simpa using shorter
      | cons c piece => by_cases accepted : test c <;> simp [keeping, ends, accepted]
  | seq p q ihFirst ihSecond =>
      exact keeping_flatMap_ends (ihFirst greedy.1 piece) fun r _ => ihSecond greedy.2 r
  | either p q ihFirst ihSecond =>
      have split : keeping behind (p.ends (piece ++ behind) ++ q.ends (piece ++ behind)) =
          keeping behind (p.ends (piece ++ behind)) ++ keeping behind (q.ends (piece ++ behind)) :=
        List.filter_append _ _
      simp only [ends]
      rw [split, ihFirst greedy.1, ihSecond greedy.2, List.map_append]
  | many body ih =>
      obtain ⟨shrinks, bodyGreedy⟩ := greedy
      -- Each round leaves less of the piece, so the induction is on its length.
      induction size : piece.length using Nat.strongRecOn generalizing piece with
      | ind n rounds =>
          have round := keeping_flatMap_ends (q := many body) (ih bodyGreedy piece)
            fun r member => rounds _ (size ▸ shrinks piece r member) r rfl
          have split : keeping behind ((body.ends (piece ++ behind)).flatMap (many body).ends ++
              [piece ++ behind]) =
              keeping behind ((body.ends (piece ++ behind)).flatMap (many body).ends) ++
                keeping behind [piece ++ behind] := List.filter_append _ _
          rw [ends_many shrinks, ends_many shrinks, split, round, List.map_append]
          simp [keeping]
  | few body ih => cases greedy

/-- What a pattern reads of a text, it also reads where the text ends there. -/
theorem first?_of_append (greedy : p.Greedy) (reads : p.first? (piece ++ more) = some more) :
    p.first? piece = some [] := by
  have inside := keeping_ends_append greedy piece more
  obtain ⟨others, found⟩ := List.head?_eq_some_iff.mp reads
  rw [found, keeping, List.filter_cons_of_pos (by simp)] at inside
  cases ways : p.ends piece with
  | nil => simp [ways] at inside
  | cons r ends =>
      rw [ways, List.map_cons] at inside
      have same : [] ++ more = r ++ more := (List.cons.inj inside).1
      simp [first?, ways, ← List.append_cancel_right same]

/-- A pattern that does not match a text does not match the front of it. -/
theorem first?_eq_none_of_append (greedy : p.Greedy) (fails : p.first? (piece ++ more) = none) :
    p.first? piece = none := by
  have inside := keeping_ends_append greedy piece more
  have nothing : p.ends (piece ++ more) = [] := List.head?_eq_none_iff.mp fails
  rw [nothing] at inside
  have none : p.ends piece = [] := List.map_eq_nil_iff.mp inside.symm
  simp [first?, none]

/-- No part of the pattern accepts a bad character. -/
def Refuses (bad : Char → Prop) : Pattern → Prop
  | nothing => True
  | char test => ∀ c, bad c → test c = false
  | seq p q => p.Refuses bad ∧ q.Refuses bad
  | either p q => p.Refuses bad ∧ q.Refuses bad
  | many p => p.Refuses bad
  | few p => p.Refuses bad

/-- The characters are tried one by one, not all characters that there are. -/
instance decidableRefuses (cs : List Char) : (p : Pattern) → Decidable (p.Refuses (· ∈ cs))
  | nothing => .isTrue trivial
  | char test => List.decidableBAll (test · = false) cs
  | seq p q => @instDecidableAnd _ _ (decidableRefuses cs p) (decidableRefuses cs q)
  | either p q => @instDecidableAnd _ _ (decidableRefuses cs p) (decidableRefuses cs q)
  | many p => decidableRefuses cs p
  | few p => decidableRefuses cs p

/-- What is left of a text after nothing bad was read. -/
def Clean (bad : Char → Prop) (left cs : List Char) : Prop :=
  ∃ read, cs = read ++ left ∧ ∀ c ∈ read, ¬ bad c

@[simp] theorem clean_refl (cs : List Char) : Clean bad cs cs := ⟨[], rfl, by simp⟩

theorem Clean.trans {left middle : List Char} (second : Clean bad left middle)
    (first : Clean bad middle cs) : Clean bad left cs := by
  obtain ⟨read, rfl, good⟩ := first
  obtain ⟨further, rfl, goodToo⟩ := second
  refine ⟨read ++ further, by rw [List.append_assoc], fun c member => ?_⟩
  rcases List.mem_append.mp member with early | late
  · exact good c early
  · exact goodToo c late

theorem clean_of_mem_ends (refuses : p.Refuses bad) {left : List Char} (member : left ∈ p.ends cs) :
    Clean bad left cs := by
  induction p generalizing cs left with
  | nothing =>
      cases List.mem_singleton.mp member
      exact clean_refl _
  | char test =>
      cases cs with
      | nil => cases member
      | cons c cs =>
          by_cases accepted : test c
          · simp only [ends, accepted, if_true, List.mem_singleton] at member
            refine ⟨[c], by rw [member]; rfl, fun d here => ?_⟩
            cases List.mem_singleton.mp here
            intro isBad
            rw [refuses c isBad] at accepted
            cases accepted
          · simp [ends, accepted] at member
  | seq p q ihFirst ihSecond =>
      obtain ⟨middle, first, second⟩ := List.mem_flatMap.mp member
      exact (ihSecond refuses.2 second).trans (ihFirst refuses.1 first)
  | either p q ihFirst ihSecond =>
      rcases List.mem_append.mp member with first | second
      · exact ihFirst refuses.1 first
      · exact ihSecond refuses.2 second
  | many body ih =>
      exact of_mem_greedy clean_refl Clean.trans (fun _ _ step => ih refuses step) member
  | few body ih =>
      exact of_mem_reluctant clean_refl Clean.trans (fun _ _ step => ih refuses step) member

/-- A pattern that reads a piece of text reads only good characters. -/
theorem not_bad_of_first? (refuses : p.Refuses bad) (reads : p.first? (piece ++ more) = some more) :
    ∀ c ∈ piece, ¬ bad c := by
  obtain ⟨read, split, good⟩ := clean_of_mem_ends refuses (List.mem_of_head? reads)
  rwa [← List.append_cancel_right split] at good

/-- Nothing is read behind a piece of text if a bad character stands there. -/
theorem first?_append (greedy : p.Greedy) (refuses : p.Refuses bad)
    (stops : ∀ c ∈ behind.head?, bad c) :
    p.first? (piece ++ behind) = (p.first? piece).map (· ++ behind) := by
  have inside : keeping behind (p.ends (piece ++ behind)) = p.ends (piece ++ behind) := by
    refine List.filter_eq_self.mpr fun left member => decide_eq_true ?_
    obtain ⟨read, split, good⟩ := clean_of_mem_ends refuses member
    by_contra short
    -- The first character behind the piece would have been read.
    rcases List.append_eq_append_iff.mp split with ⟨further, rfl, tail⟩ | ⟨unread, rfl, tail⟩
    · cases further with
      | nil =>
          rw [tail] at short
          exact short (Nat.le_refl _)
      | cons c further =>
          rw [tail] at stops
          exact good c (by simp) (stops c rfl)
    · rw [tail] at short
      simp at short
  rw [keeping_ends_append greedy] at inside
  simp only [first?, ← inside, List.head?_map]

end IdlGen.Pattern
