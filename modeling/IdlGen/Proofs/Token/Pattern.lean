import IdlGen.Token.Shape
import Mathlib.Data.List.Basic

/-!
# Patterns

A pattern is a regular expression whose choices have an order: alternatives are tried from left to
right, and a repetition either goes on as long as it can or stops as soon as it can. `ends` lists
every way in which a pattern can read the front of a text, in the order in which they are tried, and
`first?` is the way that wins.

A shape computes its length in one pass, without going back. `Reads` says that a shape and a pattern
agree on every text, so going back would have changed nothing.
-/

namespace IdlGen

inductive Pattern where
  | nothing
  | char (p : Char → Bool)
  | seq (first second : Pattern)
  | either (first second : Pattern)
  /-- As many repetitions as possible. -/
  | many (body : Pattern)
  /-- As few repetitions as possible. -/
  | few (body : Pattern)

namespace Pattern

/-- What is left after at most `n` steps, where going on comes before stopping. -/
def greedy (step : List Char → List (List Char)) : Nat → List Char → List (List Char)
  | 0, cs => [cs]
  | n + 1, cs => (step cs).flatMap (greedy step n) ++ [cs]

/-- What is left after at most `n` steps, where stopping comes before going on. -/
def reluctant (step : List Char → List (List Char)) : Nat → List Char → List (List Char)
  | 0, cs => [cs]
  | n + 1, cs => cs :: (step cs).flatMap (reluctant step n)

/-- What a pattern can leave of a text, the preferred way first. A repetition reads at least one
character, so a text has room for as many as it has characters. -/
def ends : Pattern → List Char → List (List Char)
  | nothing, cs => [cs]
  | char _, [] => []
  | char p, c :: rest => if p c then [rest] else []
  | seq p q, cs => (p.ends cs).flatMap q.ends
  | either p q, cs => p.ends cs ++ q.ends cs
  | many p, cs => greedy p.ends cs.length cs
  | few p, cs => reluctant p.ends cs.length cs

/-- What the preferred way leaves of a text. -/
def first? (p : Pattern) (cs : List Char) : Option (List Char) := (p.ends cs).head?

def optional (p : Pattern) : Pattern := either p nothing

def oneOrMore (p : Pattern) : Pattern := seq p (many p)

/-- These very characters. -/
def literal (text : List Char) : Pattern := text.foldr (fun c p => seq (char (· = c)) p) nothing

/-- The pattern and the shape take the same characters from the front of every text. -/
def Reads (p : Pattern) (shape : List Char → Nat) : Prop :=
  ∀ cs, p.first? cs = if shape cs = 0 then none else some (cs.drop (shape cs))

variable {p q : Pattern} {test : Char → Bool} {c : Char} {cs rest : List Char}

@[simp, grind =] theorem ends_nothing : nothing.ends cs = [cs] := rfl

@[simp, grind =]
theorem ends_char_cons : (char test).ends (c :: rest) = if test c then [rest] else [] := rfl

@[simp, grind =] theorem ends_seq : (seq p q).ends cs = (p.ends cs).flatMap q.ends := rfl

@[simp, grind =] theorem ends_either : (either p q).ends cs = p.ends cs ++ q.ends cs := rfl

theorem ends_many_eq_greedy : (many p).ends cs = greedy p.ends cs.length cs := rfl

@[simp] theorem first?_nothing : nothing.first? cs = some cs := rfl

@[simp] theorem first?_char_nil : (char test).first? [] = none := rfl

@[simp] theorem first?_char_cons :
    (char test).first? (c :: rest) = if test c then some rest else none := by
  by_cases accepted : test c <;> simp [first?, accepted]

@[simp] theorem first?_either : (either p q).first? cs = (p.first? cs).or (q.first? cs) := by
  simp [first?, List.head?_append]

@[simp] theorem first?_optional : (optional p).first? cs = some ((p.first? cs).getD cs) := by
  cases h : p.first? cs <;> simp [optional, h]

/-- Going back in `p` is possible until `q` accepts. -/
theorem first?_seq : (seq p q).first? cs = (p.ends cs).findSome? q.first? := by
  simp only [first?, ends_seq, List.head?_flatMap]
  rfl

@[simp] theorem first?_seq_nothing : (seq nothing q).first? cs = q.first? cs := by
  simp [first?_seq]

@[simp] theorem first?_seq_char_nil : (seq (char test) q).first? [] = none := rfl

@[simp] theorem first?_seq_char_cons :
    (seq (char test) q).first? (c :: rest) = if test c then q.first? rest else none := by
  by_cases accepted : test c <;> simp [first?_seq, accepted]

@[simp] theorem first?_seq_either {r : Pattern} :
    (seq (either p q) r).first? cs = ((seq p r).first? cs).or ((seq q r).first? cs) := by
  simp [first?_seq, List.findSome?_append]

@[simp] theorem first?_seq_seq {r : Pattern} :
    (seq (seq p q) r).first? cs = (seq p (seq q r)).first? cs := by
  simp only [first?, ends_seq, List.flatMap_assoc]
  rfl

/-- Where `q` accepts everything, there is no going back. -/
theorem first?_seq_of_isSome (total : ∀ cs, (q.first? cs).isSome) :
    (seq p q).first? cs = (p.first? cs).bind q.first? := by
  rw [first?_seq, first?]
  cases p.ends cs with
  | nil => rfl
  | cons r others =>
      obtain ⟨left, found⟩ := Option.isSome_iff_exists.mp (total r)
      simp [found]

/-- What is left after some steps is to the text as what is left after one step. -/
theorem of_mem_greedy {step : List Char → List (List Char)} {rel : List Char → List Char → Prop}
    (refl : ∀ cs, rel cs cs) (trans : ∀ {a b c}, rel a b → rel b c → rel a c)
    (steps : ∀ cs, ∀ r ∈ step cs, rel r cs) {n : Nat} {r : List Char}
    (left : r ∈ greedy step n cs) : rel r cs := by
  induction n generalizing cs with
  | zero =>
      cases List.mem_singleton.mp left
      exact refl _
  | succ n ih =>
      rcases List.mem_append.mp left with further | last
      · obtain ⟨middle, stepped, left⟩ := List.mem_flatMap.mp further
        exact trans (ih left) (steps cs middle stepped)
      · cases List.mem_singleton.mp last
        exact refl _

theorem of_mem_reluctant {step : List Char → List (List Char)}
    {rel : List Char → List Char → Prop} (refl : ∀ cs, rel cs cs)
    (trans : ∀ {a b c}, rel a b → rel b c → rel a c)
    (steps : ∀ cs, ∀ r ∈ step cs, rel r cs) {n : Nat} {r : List Char}
    (left : r ∈ reluctant step n cs) : rel r cs := by
  induction n generalizing cs with
  | zero =>
      cases List.mem_singleton.mp left
      exact refl _
  | succ n ih =>
      rcases List.mem_cons.mp left with rfl | further
      · exact refl _
      · obtain ⟨middle, stepped, left⟩ := List.mem_flatMap.mp further
        exact trans (ih left) (steps cs middle stepped)

/-- A pattern reads from the front and leaves the rest as it is. -/
theorem suffix_of_mem_ends {r : List Char} (left : r ∈ p.ends cs) : r <:+ cs := by
  induction p generalizing cs r with
  | nothing =>
      cases List.mem_singleton.mp left
      exact List.suffix_rfl
  | char test =>
      cases cs with
      | nil => cases left
      | cons c rest =>
          by_cases accepted : test c
          · simp only [ends_char_cons, accepted, if_true, List.mem_singleton] at left
            exact left ▸ List.suffix_cons c rest
          · simp [accepted] at left
  | seq p q ihFirst ihSecond =>
      obtain ⟨middle, first, second⟩ := List.mem_flatMap.mp left
      exact (ihSecond second).trans (ihFirst first)
  | either p q ihFirst ihSecond =>
      rcases List.mem_append.mp left with first | second
      · exact ihFirst first
      · exact ihSecond second
  | many body ih =>
      exact of_mem_greedy List.suffix_refl List.IsSuffix.trans (fun _ _ stepped => ih stepped) left
  | few body ih =>
      exact of_mem_reluctant List.suffix_refl List.IsSuffix.trans (fun _ _ stepped => ih stepped)
        left

/-- Every way through the pattern reads something. -/
def Shrinks (p : Pattern) : Prop := ∀ cs, ∀ r ∈ p.ends cs, r.length < cs.length

@[simp] theorem shrinks_char : (char test).Shrinks := by
  intro cs r left
  cases cs with
  | nil => cases left
  | cons c rest =>
      by_cases accepted : test c
      · simp_all
      · simp [accepted] at left

theorem Shrinks.seq (shrinks : p.Shrinks) : (seq p q).Shrinks := by
  intro cs r left
  obtain ⟨middle, first, second⟩ := List.mem_flatMap.mp left
  exact Nat.lt_of_le_of_lt (suffix_of_mem_ends second).length_le (shrinks cs middle first)

theorem Shrinks.either (first : p.Shrinks) (second : q.Shrinks) : (either p q).Shrinks := by
  intro cs r left
  rcases List.mem_append.mp left with inFirst | inSecond
  · exact first cs r inFirst
  · exact second cs r inSecond

/-- More steps than there are characters make no difference. -/
theorem greedy_eq {step : List Char → List (List Char)}
    (shrinks : ∀ cs, ∀ r ∈ step cs, r.length < cs.length) {n m : Nat}
    (enough : cs.length ≤ n) (enough' : cs.length ≤ m) : greedy step n cs = greedy step m cs := by
  have stuck : cs.length = 0 → step cs = [] := by
    intro empty
    refine List.eq_nil_iff_forall_not_mem.mpr fun r left => ?_
    have := shrinks cs r left
    omega
  induction n generalizing m cs with
  | zero =>
      cases m with
      | zero => rfl
      | succ m => simp [greedy, stuck (by omega)]
  | succ n ih =>
      cases m with
      | zero => simp [greedy, stuck (by omega)]
      | succ m =>
          simp only [greedy]
          congr 1
          apply List.flatMap_congr
          intro r left
          have shorter := shrinks cs r left
          refine ih (by omega) (by omega) fun empty => ?_
          refine List.eq_nil_iff_forall_not_mem.mpr fun r' left' => ?_
          have := shrinks r r' left'
          omega

/-- A repetition is one more round, or the end. -/
theorem ends_many (shrinks : p.Shrinks) :
    (many p).ends cs = (p.ends cs).flatMap (many p).ends ++ [cs] := by
  have unroll : greedy p.ends cs.length cs = greedy p.ends (cs.length + 1) cs :=
    greedy_eq shrinks (Nat.le_refl _) (Nat.le_succ _)
  rw [ends_many_eq_greedy, unroll, greedy]
  congr 1
  apply List.flatMap_congr
  intro r left
  exact greedy_eq shrinks (Nat.le_of_lt (shrinks cs r left)) (Nat.le_refl _)

@[simp] theorem isSome_first?_many : ((many p).first? cs).isSome := by
  rw [first?, ends_many_eq_greedy]
  cases cs.length <;> simp [greedy]

theorem first?_many (shrinks : p.Shrinks) :
    (many p).first? cs = ((p.first? cs).bind (many p).first?).or (some cs) := by
  rw [← first?_seq_of_isSome fun _ => isSome_first?_many]
  simp only [first?, ends_many shrinks, List.head?_append]
  rfl

/-- What follows a repetition sees the end of every round. -/
theorem first?_seq_many (shrinks : p.Shrinks) :
    (seq (many p) q).first? cs = ((seq p (seq (many p) q)).first? cs).or (q.first? cs) := by
  have rounds : (seq (many p) q).ends cs =
      (seq p (seq (many p) q)).ends cs ++ q.ends cs := by
    change ((many p).ends cs).flatMap q.ends =
      (p.ends cs).flatMap (fun r => ((many p).ends r).flatMap q.ends) ++ q.ends cs
    rw [ends_many shrinks, List.flatMap_append, List.flatMap_assoc, List.flatMap_singleton]
  simp only [first?, rounds, List.head?_append]

@[simp] theorem drop_run (cs : List Char) : cs.drop (Shape.run test cs) = cs.dropWhile test := by
  have whole : cs.takeWhile test ++ cs.dropWhile test = cs := List.takeWhile_append_dropWhile
  calc cs.drop (Shape.run test cs)
      = (cs.takeWhile test ++ cs.dropWhile test).drop (cs.takeWhile test).length := by
        rw [whole]; rfl
    _ = cs.dropWhile test := List.drop_left

@[simp] theorem first?_many_char : (many (char test)).first? cs = some (cs.dropWhile test) := by
  induction cs with
  | nil => rfl
  | cons c rest ih =>
      rw [first?_many shrinks_char, first?_char_cons, List.dropWhile_cons]
      by_cases accepted : test c
      · simp [accepted, ih]
      · simp [accepted]

/-- A run of characters is read in full by what comes after it, if that cannot begin with one of
them. -/
@[simp] theorem first?_seq_many_char (refuses : ∀ c rest, test c → q.first? (c :: rest) = none) :
    (seq (many (char test)) q).first? cs = q.first? (cs.dropWhile test) := by
  induction cs with
  | nil => simp [first?_seq_many shrinks_char]
  | cons c rest ih =>
      rw [first?_seq_many shrinks_char, first?_seq_char_cons, List.dropWhile_cons]
      by_cases accepted : test c
      · simp [accepted, ih, refuses c rest accepted]
      · simp [accepted]

end Pattern

end IdlGen
