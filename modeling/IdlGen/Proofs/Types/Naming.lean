import IdlGen.Proofs.Types.Container
import Mathlib.Data.List.Basic
import Mathlib.Tactic.Ring

/-!
# The names of containers that a text asks for

A text names types by words, and containers over them with angle brackets and commas. A word without
a container's marks can still lead to a type whose name holds such marks: a type of the model that
is being read, since the name of a model can be any text. So two containers of one name need not
have the same elements in general.

They do if the elements of one of them are named without the help of a model. The argument follows
the marks of a name with a stack: for each open bracket, how many commas are still to come. A name
put together from plain words leaves the stack as it was. The name of a model that holds marks, but
as many opening brackets as closing ones, uses up a comma of a bracket that was open before, and no
other part of the name gives it back.
-/

namespace IdlGen

/-- The names that a text can ask for while the given model is read: words, words that stand for a
type of the model, and containers over such names. -/
inductive Spelt (model : Option String) : List Char → Prop
  | word {x : List Char} (plain : Plain x) : Spelt model x
  | own {n : String} {x : List Char} (name : model = some n) (plain : Plain x) :
      Spelt model (n.toList ++ '.' :: x)
  | list {e : List Char} (elem : Spelt model e) :
      Spelt model ('l' :: 'i' :: 's' :: 't' :: '<' :: (e ++ ['>']))
  | set {e : List Char} (elem : Spelt model e) :
      Spelt model ('s' :: 'e' :: 't' :: '<' :: (e ++ ['>']))
  | map {k v : List Char} (key : Spelt model k) (value : Spelt model v) :
      Spelt model ('m' :: 'a' :: 'p' :: '<' :: (k ++ ',' :: (v ++ ['>'])))

theorem Spelt.enclosed {text : List Char} (spelt : Spelt none text) : Enclosed text := by
  induction spelt with
  | word plain => exact .of_plain plain
  | own name => cases name
  | list _ ih | set _ ih => simp [Enclosed, brackets, ih.at_depth]
  | map _ _ ihk ihv => simp [Enclosed, brackets, ihk.at_depth, ihv.at_depth]

/-- How many more brackets are opened than closed. -/
def excess (text : List Char) : Int := text.count '<' - text.count '>'

@[simp, grind =] theorem excess_append (front back : List Char) :
    excess (front ++ back) = excess front + excess back := by
  simp only [excess, List.count_append]
  omega

theorem excess_plain {x : List Char} (plain : Plain x) : excess x = 0 := by
  have opens : x.count '<' = 0 := List.count_eq_zero.mpr fun member => (plain _ member).1 rfl
  have closes : x.count '>' = 0 := List.count_eq_zero.mpr fun member => (plain _ member).2.1 rfl
  simp [excess, opens, closes]

theorem excess_word {x : List Char} (plain : Plain x) : excess ('.' :: x) = 0 := by
  rw [← excess_plain plain]
  simp [excess]

theorem excess_container (front : List Char) {e : List Char} (opened : excess front = 1) :
    excess (front ++ (e ++ ['>'])) = excess e := by
  rw [excess_append, excess_append, opened]
  simp [excess]

theorem excess_map (k v : List Char) :
    excess ('m' :: 'a' :: 'p' :: '<' :: (k ++ ',' :: (v ++ ['>']))) = excess k + excess v := by
  have whole : 'm' :: 'a' :: 'p' :: '<' :: (k ++ ',' :: (v ++ ['>'])) =
      ['m', 'a', 'p', '<'] ++ ((k ++ [','] ++ v) ++ ['>']) := by simp
  rw [whole, excess_container _ rfl, excess_append, excess_append]
  simp [excess]

/-- Brackets that a name opens and does not close come from the name of the model. -/
theorem Spelt.excess_cases {model : Option String} {text : List Char} (spelt : Spelt model text) :
    Spelt none text ∧ excess text = 0 ∨
      ∃ n, model = some n ∧ ∃ j : Nat, excess text = (j + 1) * excess n.toList := by
  induction spelt with
  | word plain => exact .inl ⟨.word plain, excess_plain plain⟩
  | @own n _ name plain =>
      exact .inr ⟨n, name, 0, by rw [excess_append, excess_word plain]; simp⟩
  | @list e _ ih =>
      have same : excess ('l' :: 'i' :: 's' :: 't' :: '<' :: (e ++ ['>'])) = excess e :=
        excess_container ['l', 'i', 's', 't', '<'] rfl
      rw [same]
      exact ih.imp_left fun kept => ⟨.list kept.1, kept.2⟩
  | @set e _ ih =>
      have same : excess ('s' :: 'e' :: 't' :: '<' :: (e ++ ['>'])) = excess e :=
        excess_container ['s', 'e', 't', '<'] rfl
      rw [same]
      exact ih.imp_left fun kept => ⟨.set kept.1, kept.2⟩
  | @map k v _ _ ihk ihv =>
      rw [excess_map]
      rcases ihk with ⟨key, zero⟩ | ⟨n, name, i, inKey⟩
      · rcases ihv with ⟨value, zero'⟩ | ⟨n, name, j, inValue⟩
        · exact .inl ⟨.map key value, by rw [zero, zero']; rfl⟩
        · exact .inr ⟨n, name, j, by rw [zero, inValue, zero_add]⟩
      · rcases ihv with ⟨value, zero⟩ | ⟨n', name', j, inValue⟩
        · exact .inr ⟨n, name, i, by rw [inKey, zero, add_zero]⟩
        · cases name.symm.trans name'
          refine .inr ⟨n, name, i + j + 1, ?_⟩
          rw [inKey, inValue]
          push_cast
          ring

/-- A place in a name: the commas that are still to come in each open bracket, the innermost first,
and the word that is being read. Right behind a closing bracket there is no word. -/
structure Cursor where
  commas : List Nat
  word : Option (List Char)

namespace Cursor

/-- Passes over one character. Only a word can be before an opening bracket, and only `map` has a
comma in its brackets. -/
def step (p : Cursor) (c : Char) : Option Cursor :=
  if c = '<' then
    p.word.map fun word => ⟨(if word = ['m', 'a', 'p'] then 1 else 0) :: p.commas, some []⟩
  else if c = '>' then
    match p.commas with
    | 0 :: outer => some ⟨outer, none⟩
    | _ => none
  else if c = ',' then
    match p.commas with
    | (k + 1) :: outer => some ⟨k :: outer, some []⟩
    | _ => none
  else p.word.map fun word => ⟨p.commas, some (word ++ [c])⟩

/-- Passes over a text. -/
def follow (p : Cursor) (text : List Char) : Option Cursor := text.foldlM step p

variable {p q : Cursor}

@[simp, grind =] theorem follow_append (p : Cursor) (front back : List Char) :
    p.follow (front ++ back) = (p.follow front).bind (·.follow back) :=
  List.foldlM_append

@[simp, grind =] theorem follow_cons (p : Cursor) (c : Char) (cs : List Char) :
    p.follow (c :: cs) = (p.step c).bind (·.follow cs) :=
  List.foldlM_cons

@[simp, grind =] theorem follow_nil (p : Cursor) : p.follow [] = some p := rfl

/-- A plain text only makes the word longer. -/
theorem follow_plain {commas : List Nat} {word x : List Char} (plain : Plain x) :
    follow ⟨commas, some word⟩ x = some ⟨commas, some (word ++ x)⟩ := by
  induction x generalizing word with
  | nil => simp [follow]
  | cons c cs ih =>
      obtain ⟨notOpen, notClose, notComma⟩ := plain c (by simp)
      rw [follow_cons]
      simp only [step, notOpen, notClose, notComma, ↓reduceIte, Option.map_some, Option.bind_some]
      rw [ih fun d member => plain d (by simp [member])]
      simp

theorem follow_list (commas : List Nat) (e : List Char) :
    follow ⟨commas, some []⟩ ('l' :: 'i' :: 's' :: 't' :: '<' :: (e ++ ['>'])) =
      (follow ⟨0 :: commas, some []⟩ e).bind (step · '>') := by
  simp [step]

theorem follow_set (commas : List Nat) (e : List Char) :
    follow ⟨commas, some []⟩ ('s' :: 'e' :: 't' :: '<' :: (e ++ ['>'])) =
      (follow ⟨0 :: commas, some []⟩ e).bind (step · '>') := by
  simp [step]

theorem follow_map (commas : List Nat) (k v : List Char) :
    follow ⟨commas, some []⟩ ('m' :: 'a' :: 'p' :: '<' :: (k ++ ',' :: (v ++ ['>']))) =
      (follow ⟨1 :: commas, some []⟩ k).bind fun p =>
        (p.step ',').bind fun q => (q.follow v).bind (step · '>') := by
  simp [step]

/-- Names made from plain words leave the commas as they were. -/
theorem follow_spelt {commas : List Nat} {text : List Char} (spelt : Spelt none text) :
    ∃ word, follow ⟨commas, some []⟩ text = some ⟨commas, word⟩ := by
  induction spelt generalizing commas with
  | word plain => exact ⟨_, follow_plain plain⟩
  | own name => cases name
  | list _ ih =>
      obtain ⟨word, inside⟩ := @ih (0 :: commas)
      exact ⟨none, by rw [follow_list, inside]; rfl⟩
  | set _ ih =>
      obtain ⟨word, inside⟩ := @ih (0 :: commas)
      exact ⟨none, by rw [follow_set, inside]; rfl⟩
  | map _ _ ihk ihv =>
      obtain ⟨word, inKey⟩ := @ihk (1 :: commas)
      obtain ⟨word', inValue⟩ := @ihv (0 :: commas)
      refine ⟨none, ?_⟩
      rw [follow_map, inKey]
      change ((follow ⟨0 :: commas, some []⟩ _).bind _) = _
      rw [inValue]
      rfl

/-- Fewer commas are to come: in the outermost bracket for which the two differ. -/
def Fewer : List Nat → List Nat → Prop
  | a :: as, b :: bs => Fewer as bs ∨ as = bs ∧ a < b
  | _, _ => False

theorem Fewer.trans {as bs cs : List Nat} (first : Fewer as bs) (second : Fewer bs cs) :
    Fewer as cs := by
  induction as generalizing bs cs with
  | nil => cases first
  | cons a as ih =>
      cases bs with
      | nil => cases first
      | cons b bs =>
          cases cs with
          | nil => cases second
          | cons c cs =>
              rcases first with outer | ⟨rfl, less⟩ <;> rcases second with outer' | ⟨rfl, less'⟩
              · exact .inl (ih outer outer')
              · exact .inl outer
              · exact .inl outer'
              · exact .inr ⟨rfl, Nat.lt_trans less less'⟩

theorem fewer_of_append {as bs rest : List Nat} {a b : Nat} (size : as.length = bs.length)
    (less : a < b) : Fewer (as ++ a :: rest) (bs ++ b :: rest) := by
  induction as generalizing bs with
  | nil =>
      cases bs with
      | nil => exact .inr ⟨rfl, less⟩
      | cons => cases size
  | cons x xs ih =>
      cases bs with
      | nil => cases size
      | cons y ys => exact .inl (ih (Nat.succ.inj size))

/-- How a text that is followed from a place in a word has changed the commas. -/
inductive Change (before : List Nat) (text : List Char) : Cursor → Prop
  /-- Not at all. -/
  | none {word : List Char} (plain : Plain text) : Change before text ⟨before, some word⟩
  /-- Brackets of the text are open. -/
  | opened (commas : List Nat) {word : Option (List Char)} (ne : commas ≠ []) :
      Change before text ⟨commas ++ before, word⟩
  /-- The last bracket of the text, or one that was open before, was closed right now. -/
  | closed (commas : List Nat) {outer : List Nat} (split : before = commas ++ outer) :
      Change before text ⟨outer, .none⟩
  /-- A comma was used up in a bracket that was open before. -/
  | used (commas inner : List Nat) {outer : List Nat} {word : Option (List Char)} {a b : Nat}
      (split : before = inner ++ b :: outer) (less : a < b) :
      Change before text ⟨commas ++ a :: outer, word⟩

theorem step_cases {p q : Cursor} {c : Char} (next : p.step c = some q) :
    (c = '<' ∧ ∃ k, p.word ≠ none ∧ q = ⟨k :: p.commas, some []⟩) ∨
    (c = '>' ∧ ∃ outer, p.commas = 0 :: outer ∧ q = ⟨outer, none⟩) ∨
    (c = ',' ∧ ∃ k outer, p.commas = (k + 1) :: outer ∧ q = ⟨k :: outer, some []⟩) ∨
    (c ≠ '<' ∧ c ≠ '>' ∧ c ≠ ',') ∧ p.word ≠ none ∧ ∃ word, q = ⟨p.commas, some word⟩ := by
  unfold step at next
  split at next
  · obtain ⟨word, before, rfl⟩ := Option.map_eq_some_iff.mp next
    exact .inl ⟨‹_›, _, by simp [before], rfl⟩
  · split at next
    · split at next
      · cases next
        exact .inr (.inl ⟨‹_›, _, ‹_›, rfl⟩)
      · cases next
    · split at next
      · split at next
        · cases next
          exact .inr (.inr (.inl ⟨‹_›, _, _, ‹_›, rfl⟩))
        · cases next
      · obtain ⟨word, before, rfl⟩ := Option.map_eq_some_iff.mp next
        exact .inr (.inr (.inr ⟨⟨‹_›, ‹_›, ‹_›⟩, by simp [before], _, rfl⟩))

theorem Change.step {before : List Nat} {text : List Char} {p q : Cursor} {c : Char}
    (change : Change before text p) (next : p.step c = some q) : Change before (text ++ [c]) q := by
  rcases step_cases next with ⟨_, k, inWord, rfl⟩ | ⟨_, rest, top, rfl⟩ | ⟨_, k, rest, top, rfl⟩ |
    ⟨plainChar, inWord, word, rfl⟩
  · cases change with
    | none => exact .opened [k] (by simp)
    | opened commas => exact .opened (k :: commas) (by simp)
    | closed => exact absurd rfl inWord
    | used commas inner split less => exact .used (k :: commas) inner split less
  · cases change with
    | none => exact .closed [0] top
    | opened commas ne =>
        cases commas with
        | nil => exact absurd rfl ne
        | cons a commas =>
            cases top
            cases commas with
            | nil => exact .closed [] rfl
            | cons b commas => exact .opened (b :: commas) (by simp)
    | closed commas split =>
        cases top
        exact .closed (commas ++ [0]) (by simp [split])
    | @used commas inner _ _ a b split less =>
        cases commas with
        | nil =>
            cases top
            exact .closed (inner ++ [b]) (by simp [split])
        | cons a commas =>
            cases top
            exact .used commas inner split less
  · cases change with
    | none => exact .used [] [] top (Nat.lt_succ_self k)
    | opened commas ne =>
        cases commas with
        | nil => exact absurd rfl ne
        | cons a commas =>
            cases top
            exact .opened (k :: commas) (by simp)
    | closed commas split =>
        cases top
        exact .used [] commas split (Nat.lt_succ_self k)
    | used commas inner split less =>
        cases commas with
        | nil =>
            cases top
            exact .used [] inner split (Nat.lt_of_succ_lt less)
        | cons a commas =>
            cases top
            exact .used (k :: commas) inner split less
  · cases change with
    | none plain =>
        refine .none fun d member => ?_
        rcases List.mem_append.mp member with old | last
        · exact plain d old
        · exact List.mem_singleton.mp last ▸ plainChar
    | opened commas ne => exact .opened commas ne
    | closed => exact absurd rfl inWord
    | used commas inner split less => exact .used commas inner split less

theorem Change.follow {commas : List Nat} {word : List Char} {text : List Char} {q : Cursor}
    (run : Cursor.follow ⟨commas, some word⟩ text = some q) : Change commas text q := by
  suffices from_any : ∀ (done more : List Char) (p : Cursor), Change commas done p →
      p.follow more = some q → Change commas (done ++ more) q from
    from_any [] text _ (.none (by simp [Plain])) run
  intro done more
  induction more generalizing done with
  | nil =>
      intro p change run
      cases run
      simpa using change
  | cons c cs ih =>
      intro p change run
      rw [follow_cons] at run
      obtain ⟨next, stepped, further⟩ := Option.bind_eq_some_iff.mp run
      simpa using ih (done ++ [c]) next (change.step stepped) further

/-- The number of open brackets follows from the brackets passed. -/
theorem length_follow {p q : Cursor} {text : List Char} (run : p.follow text = some q) :
    (q.commas.length : Int) = p.commas.length + excess text := by
  induction text generalizing p with
  | nil =>
      cases run
      simp [excess]
  | cons c cs ih =>
      rw [follow_cons] at run
      obtain ⟨next, stepped, further⟩ := Option.bind_eq_some_iff.mp run
      rw [ih further]
      rcases step_cases stepped with ⟨rfl, k, _, rfl⟩ | ⟨rfl, outer, top, rfl⟩ |
        ⟨rfl, k, outer, top, rfl⟩ | ⟨⟨notOpen, notClose, _⟩, _, word, rfl⟩
      · simp [excess]
        omega
      · simp [excess, top]
        omega
      · simp [excess, top]
      · simp [excess, notOpen, notClose]

/-- A type of a model: either its name is plain, or it has used up a comma. -/
theorem follow_own {commas : List Nat} {n x : List Char} {q : Cursor} (balanced : excess n = 0)
    (plain : Plain x) (run : follow ⟨commas, some []⟩ (n ++ '.' :: x) = some q) :
    Plain (n ++ '.' :: x) ∧ q.commas = commas ∨ Fewer q.commas commas := by
  have size : q.commas.length = commas.length := by
    have total := length_follow run
    rw [excess_append, balanced, excess_word plain] at total
    simpa using total
  -- The point stands in a word, and so does all that follows it.
  have inWord : q.word ≠ none := by
    rw [follow_append] at run
    obtain ⟨p, _, further⟩ := Option.bind_eq_some_iff.mp run
    rw [follow_cons] at further
    obtain ⟨next, stepped, further⟩ := Option.bind_eq_some_iff.mp further
    rcases step_cases stepped with ⟨isOpen, _⟩ | ⟨isClose, _⟩ | ⟨isComma, _⟩ | ⟨_, _, word, rfl⟩
    · cases isOpen
    · cases isClose
    · cases isComma
    · rw [follow_plain plain] at further
      cases further
      simp
  cases Change.follow run with
  | none plain => exact .inl ⟨plain, rfl⟩
  | opened opened ne =>
      rw [List.length_append] at size
      exact absurd (List.length_eq_zero_iff.mp (by omega)) ne
  | closed => exact absurd rfl inWord
  | used more inner split less =>
      subst split
      refine .inr (fewer_of_append ?_ less)
      simp only [List.length_append, List.length_cons] at size
      omega

theorem step_close {p q : Cursor} (ended : p.step '>' = some q) :
    ∃ outer, p.commas = 0 :: outer ∧ q = ⟨outer, none⟩ := by
  rcases step_cases ended with ⟨other, _⟩ | ⟨_, closes⟩ | ⟨other, _⟩ | ⟨⟨_, other, _⟩, _⟩
  · cases other
  · exact closes
  · cases other
  · exact absurd rfl other

theorem step_comma {p q : Cursor} (separated : p.step ',' = some q) :
    ∃ k outer, p.commas = (k + 1) :: outer ∧ q = ⟨k :: outer, some []⟩ := by
  rcases step_cases separated with ⟨other, _⟩ | ⟨other, _⟩ | ⟨_, uses⟩ | ⟨⟨_, _, other⟩, _⟩
  · cases other
  · cases other
  · exact uses
  · exact absurd rfl other

/-- A bracket that is closed gives back no comma of those around it. -/
theorem fewer_of_close {P : Prop} {p q : Cursor} {commas : List Nat} (ended : p.step '>' = some q)
    (inside : P ∧ p.commas = 0 :: commas ∨ Fewer p.commas (0 :: commas)) :
    P ∧ q.commas = commas ∨ Fewer q.commas commas := by
  obtain ⟨outer, top, rfl⟩ := step_close ended
  rw [top] at inside
  rcases inside with ⟨holds, same⟩ | fewer | ⟨_, less⟩
  · exact .inl ⟨holds, List.tail_eq_of_cons_eq same⟩
  · exact .inr fewer
  · cases less

theorem follow_spelt_own {n : String} {commas : List Nat} {text : List Char} {q : Cursor}
    (balanced : excess n.toList = 0) (spelt : Spelt (some n) text)
    (run : follow ⟨commas, some []⟩ text = some q) :
    Spelt none text ∧ q.commas = commas ∨ Fewer q.commas commas := by
  induction spelt generalizing commas q with
  | word plain =>
      rw [follow_plain plain] at run
      cases run
      exact .inl ⟨.word plain, rfl⟩
  | own name plain =>
      cases name
      exact (follow_own balanced plain run).imp_left fun whole => ⟨.word whole.1, whole.2⟩
  | list _ ih =>
      rw [follow_list] at run
      obtain ⟨p, inside, ended⟩ := Option.bind_eq_some_iff.mp run
      exact (fewer_of_close ended (ih inside)).imp_left fun kept => ⟨.list kept.1, kept.2⟩
  | set _ ih =>
      rw [follow_set] at run
      obtain ⟨p, inside, ended⟩ := Option.bind_eq_some_iff.mp run
      exact (fewer_of_close ended (ih inside)).imp_left fun kept => ⟨.set kept.1, kept.2⟩
  | map _ _ ihk ihv =>
      rw [follow_map] at run
      obtain ⟨p, inKey, run⟩ := Option.bind_eq_some_iff.mp run
      obtain ⟨between, separated, run⟩ := Option.bind_eq_some_iff.mp run
      obtain ⟨r, inValue, ended⟩ := Option.bind_eq_some_iff.mp run
      obtain ⟨k, outer, top, rfl⟩ := step_comma separated
      have key := ihk inKey
      rw [top] at key
      rcases key with ⟨key, same⟩ | fewer | ⟨_, less⟩
      · cases same
        exact (fewer_of_close ended (ihv inValue)).imp_left fun kept =>
          ⟨.map key kept.1, kept.2⟩
      · -- What the key has used up is missing behind the value as well.
        have less : Fewer (k :: outer) (0 :: commas) := .inl fewer
        have value : Fewer r.commas (0 :: commas) := by
          rcases ihv inValue with ⟨_, same⟩ | fewer'
          · exact same ▸ less
          · exact fewer'.trans less
        have closed := fewer_of_close (P := False) ended (.inr value)
        exact .inr (closed.resolve_left fun kept => kept.1)
      · omega

end Cursor

/-- If a map is named without the help of a model, so are its key and its value. -/
theorem Spelt.of_map {model : Option String} {k v : List Char} (key : Spelt model k)
    (value : Spelt model v)
    (whole : Spelt none ('m' :: 'a' :: 'p' :: '<' :: (k ++ ',' :: (v ++ ['>'])))) :
    Spelt none k ∧ Spelt none v := by
  -- Unless the name of the model is balanced, the whole shows its brackets.
  have sum : excess k + excess v = 0 := by
    rw [← excess_map]
    rcases whole.excess_cases with ⟨_, zero⟩ | ⟨n, name, _⟩
    · exact zero
    · cases name
  have balanced : Spelt none k ∧ Spelt none v ∨ ∃ n, model = some n ∧ excess n.toList = 0 := by
    have zero_of_mul {j : Nat} {d : Int} (zero : ((j : Int) + 1) * d = 0) : d = 0 :=
      (mul_eq_zero.mp zero).resolve_left (by omega)
    rcases key.excess_cases with ⟨plainKey, zero⟩ | ⟨n, name, i, inKey⟩
    · rcases value.excess_cases with ⟨plainValue, _⟩ | ⟨n, name, j, inValue⟩
      · exact .inl ⟨plainKey, plainValue⟩
      · rw [zero, inValue, zero_add] at sum
        exact .inr ⟨n, name, zero_of_mul sum⟩
    · rcases value.excess_cases with ⟨_, zero⟩ | ⟨n', name', j, inValue⟩
      · rw [inKey, zero, add_zero] at sum
        exact .inr ⟨n, name, zero_of_mul sum⟩
      · cases name.symm.trans name'
        refine .inr ⟨n, name, zero_of_mul (j := i + j + 1) ?_⟩
        rw [← sum, inKey, inValue]
        push_cast
        ring
  rcases balanced with both | ⟨n, rfl, balanced⟩
  · exact both
  -- Follow the map from a place outside of all brackets.
  obtain ⟨word, run⟩ := @Cursor.follow_spelt [] _ whole
  rw [Cursor.follow_map] at run
  obtain ⟨p, inKey, run⟩ := Option.bind_eq_some_iff.mp run
  obtain ⟨between, separated, run⟩ := Option.bind_eq_some_iff.mp run
  obtain ⟨r, inValue, ended⟩ := Option.bind_eq_some_iff.mp run
  obtain ⟨k, outer, top, rfl⟩ := Cursor.step_comma separated
  have afterKey := Cursor.follow_spelt_own balanced key inKey
  rw [top] at afterKey
  rcases afterKey with ⟨plainKey, same⟩ | none | ⟨_, less⟩
  · cases same
    obtain ⟨outer, top, _⟩ := Cursor.step_close ended
    have afterValue := Cursor.follow_spelt_own balanced value inValue
    rw [top] at afterValue
    rcases afterValue with ⟨plainValue, _⟩ | none | ⟨_, less⟩
    · exact ⟨plainKey, plainValue⟩
    · cases outer <;> cases none
    · cases less
  · cases outer <;> cases none
  · omega

theorem Spelt.make {model : Option String} {c : Container} {n : Nat}
    (spelt : ∀ e ∈ c.elements, Spelt model e.qname.toList) :
    Spelt model (c.make n).qname.toList := by
  rw [Container.toList_qname_make]
  cases c with
  | list e => exact .list (spelt e (by simp))
  | set e => exact .set (spelt e (by simp))
  | map k v => exact .map (spelt k (by simp)) (spelt v (by simp))

/-- If a container is named without the help of a model, so are its elements. -/
theorem Spelt.of_make {model : Option String} {c : Container} {n : Nat}
    (spelt : ∀ e ∈ c.elements, Spelt model e.qname.toList)
    (whole : Spelt none (c.make n).qname.toList) : ∀ e ∈ c.elements, Spelt none e.qname.toList := by
  have marked : ¬ Plain (c.make n).qname.toList := Container.not_plain_make
  rw [Container.toList_qname_make] at whole marked
  cases c with
  | map k v =>
      obtain ⟨key, value⟩ := of_map (spelt k (by simp)) (spelt v (by simp)) whole
      simpa using ⟨key, value⟩
  | list e | set e =>
      simp only [Container.elements, List.mem_singleton, forall_eq]
      dsimp only at whole marked
      generalize text : _ :: _ = name at whole marked
      cases whole with
      | word plain => exact absurd plain marked
      | own none => cases none
      | list elem | set elem | map =>
          first | (simp at text; done) | exact (by simpa using text : e.qname.toList = _) ▸ elem

/-- Containers of one name are equal, if the elements of one of them are named without the help of
a model. -/
theorem Container.eq_of_spelt {model : Option String} {c d : Container} {n k : Nat}
    (same : (c.make n).qname = (d.make k).qname)
    (spelt : ∀ e ∈ c.elements, Spelt model e.qname.toList)
    (spelt' : ∀ e ∈ d.elements, Spelt none e.qname.toList)
    (unique : ∀ e ∈ c.elements, ∀ e' ∈ d.elements, e.qname = e'.qname → e = e') : c = d := by
  have whole : Spelt none (c.make n).qname.toList := same ▸ Spelt.make spelt'
  exact eq_of_qname_make same (fun e member => (Spelt.of_make spelt whole e member).enclosed)
    (fun e member => (spelt' e member).enclosed) unique

end IdlGen
