import IdlGen.Proofs.Naming.Substitution
import IdlGen.Proofs.Text.Case

/-!
# Boundaries between words

The bars of a name in snake case come from two substitutions, one after the other. The bars of the
first one are no letters and stand where the second one finds no match, so both of them see the
letters of the name itself. Whether there is a bar before a capital is decided by the characters
around it, then: these say where the boundaries are.
-/

namespace IdlGen

namespace Naming

open Pattern

variable {c : Char} {cs rest : List Char}

/-- Whether a small letter stands at the end, or right before the digits at the end. -/
def endsSmall (before : List Char) : Bool := (before.reverse.dropWhile isDigit).head?.any isSmall

def endsCapital (before : List Char) : Bool := before.getLast?.any isCapital

/-- Whether a word begins at the place: with a capital behind a small letter and its digits, or with
a capital between another one and a small letter. -/
def isBoundary (cs : List Char) (i : Nat) : Bool :=
  cs[i]?.any isCapital &&
    (endsSmall (cs.take i) || endsCapital (cs.take i) && cs[i + 1]?.any isSmall)

/-- The name with one bar before each boundary and no others. -/
def withBars (cs : List Char) : List Char :=
  cs.zipIdx.flatMap fun entry => if isBoundary cs entry.2 then ['_', entry.1] else [entry.1]

variable {before : List Char}

@[simp] theorem endsSmall_concat :
    endsSmall (before ++ [c]) = (isSmall c || endsSmall before && isDigit c) := by
  unfold endsSmall
  rw [List.reverse_concat]
  by_cases digit : isDigit c = true
  · simp [digit, others_of_isDigit digit]
  · simp [digit]

theorem isBoundary_append : isBoundary (before ++ c :: rest) before.length =
    (isCapital c && (endsSmall before || endsCapital before && rest.head?.any isSmall)) := by
  have next : (before ++ c :: rest)[before.length + 1]? = rest.head? := by
    rw [List.getElem?_append_right (Nat.le_succ _)]
    simp [List.head?_eq_getElem?]
  simp [isBoundary, next]

@[simp] theorem head?_splitSmall_false : (splitSmall false cs).head? = cs.head? := by
  cases cs with
  | nil => rfl
  | cons c rest => simp [splitSmall]

/-- Both passes at one character. The bars of the first one are no letters, so the second one sees
the same neighbours. -/
theorem split_cons (small upper : Bool) (c : Char) (rest : List Char) :
    splitCapitals upper (splitSmall small (c :: rest)) =
      (if isCapital c && (small || upper && rest.head?.any isSmall) then ['_', c] else [c]) ++
        splitCapitals (isCapital c) (splitSmall (isSmall c || small && isDigit c) rest) := by
  by_cases capital : isCapital c = true
  · obtain ⟨notSmall, notDigit⟩ := others_of_isCapital capital
    cases small with
    | true =>
        have bar : isCapital '_' = false := by decide
        simp [splitSmall, splitCapitals, capital, notSmall, notDigit, bar]
    | false =>
        simp only [splitSmall, Bool.false_and, Bool.false_eq_true, if_false, notSmall,
          Bool.or_self, Bool.false_or]
        rw [splitCapitals, head?_splitSmall_false, capital, Bool.and_true, Bool.true_and]
        split
        · rfl
        · rfl
  · simp [splitSmall, splitCapitals, capital]

/-- Both passes over the rest of a name, by what stands before it. -/
theorem split_behind (before rest : List Char) :
    splitCapitals (endsCapital before) (splitSmall (endsSmall before) rest) =
      (rest.zipIdx before.length).flatMap fun entry =>
        if isBoundary (before ++ rest) entry.2 then ['_', entry.1] else [entry.1] := by
  induction rest generalizing before with
  | nil => rfl
  | cons c rest ih =>
      have ahead := ih (before ++ [c])
      rw [List.append_assoc, List.length_append, List.length_singleton] at ahead
      have capital : endsCapital (before ++ [c]) = isCapital c := by simp [endsCapital]
      rw [endsSmall_concat, capital] at ahead
      rw [List.zipIdx_cons, List.flatMap_cons, isBoundary_append]
      simp only [List.cons_append, List.nil_append] at ahead
      rw [← ahead, split_cons]

@[simp] theorem split_eq_withBars (cs : List Char) :
    splitCapitals false (splitSmall false cs) = withBars cs :=
  split_behind [] cs

theorem bars_iff_eq_withBars (cs : List Char) (barred : List Char) :
    (∃ split, Bars smallRun capital cs split ∧ Bars capital capitalWord split barred) ↔
      barred = withBars cs := by
  have first := splitSmall_bars cs
  have second := splitCapitals_bars (splitSmall false cs)
  rw [split_eq_withBars] at second
  constructor
  · rintro ⟨split, front, back⟩
    obtain rfl := front.unique first
    exact back.unique second
  · rintro rfl
    exact ⟨_, first, second⟩

theorem flatMap_zipIdx (f : Char → List Char) (cs : List Char) :
    cs.zipIdx.flatMap (fun entry => f entry.1) = cs.flatMap f := by
  conv_rhs => rw [← List.zipIdx_map_fst 0 cs, List.flatMap_map]

/-- Without capitals there are no boundaries. -/
theorem withBars_of_lower (lower : ∀ c ∈ cs, isCapital c = false) : withBars cs = cs := by
  have none (i : Nat) : isBoundary cs i = false := by
    have here : cs[i]?.any isCapital = false := by
      cases found : cs[i]? with
      | none => rfl
      | some c => exact lower c (List.mem_of_getElem? found)
    rw [isBoundary, here, Bool.false_and]
  simp only [withBars, none, Bool.false_eq_true, if_false]
  rw [flatMap_zipIdx (fun c => [c])]
  exact List.flatMap_singleton' cs

/-- Nothing but bars is put in. -/
theorem filter_withBars (cs : List Char) :
    (withBars cs).filter (· ≠ '_') = cs.filter (· ≠ '_') := by
  have kept (entry : Char × Nat) :
      (if isBoundary cs entry.2 then ['_', entry.1] else [entry.1]).filter (· ≠ '_') =
        [entry.1].filter (· ≠ '_') := by
    split
    · rfl
    · rfl
  calc (withBars cs).filter (· ≠ '_')
      = cs.zipIdx.flatMap fun entry => [entry.1].filter (· ≠ '_') := by
        rw [withBars, List.filter_flatMap]
        exact List.flatMap_congr fun entry _ => kept entry
    _ = cs.flatMap fun c => [c].filter (· ≠ '_') :=
        flatMap_zipIdx (fun c => [c].filter (· ≠ '_')) cs
    _ = cs.filter (· ≠ '_') := by rw [← List.filter_flatMap, List.flatMap_singleton']

theorem toLower_of_not_isCapital (lower : isCapital c = false) : c.toLower = c := by
  refine dif_neg fun inside => ?_
  have upper : isCapital c = true :=
    isCapital_iff.mpr ⟨UInt32.le_iff_toNat_le.mp inside.1, UInt32.le_iff_toNat_le.mp inside.2⟩
  rw [lower] at upper
  cases upper

theorem isSmall_toLower (upper : isCapital c = true) : isSmall c.toLower = true := by
  have table : ∀ n < 91, 65 ≤ n → isSmall (Char.ofNat n).toLower = true := by decide
  obtain ⟨least, most⟩ := isCapital_iff.mp upper
  rw [← Char.ofNat_toNat c]
  exact table c.toNat (by omega) least

@[simp] theorem isCapital_toLower (c : Char) : isCapital c.toLower = false := by
  by_cases upper : isCapital c = true
  · exact not_isCapital_of_isSmall (isSmall_toLower upper)
  · rw [Bool.not_eq_true] at upper
    rwa [toLower_of_not_isCapital upper]

@[simp] theorem toLower_eq_bar_iff : c.toLower = '_' ↔ c = '_' := by
  by_cases upper : isCapital c = true
  · have small := isSmall_toLower upper
    constructor
    · intro bar
      rw [bar] at small
      exact absurd small (by decide)
    · rintro rfl
      exact absurd upper (by decide)
  · rw [Bool.not_eq_true] at upper
    rw [toLower_of_not_isCapital upper]

theorem isAscii_map_toLower (ascii : Text.isAscii cs = true) :
    Text.isAscii (cs.map Char.toLower) = true := by
  simp only [Text.isAscii, List.all_map, List.all_eq_true, Function.comp_apply,
    decide_eq_true_eq] at ascii ⊢
  intro c member
  by_cases upper : isCapital c = true
  · have small := isSmall_iff.mp (isSmall_toLower upper)
    omega
  · rw [Bool.not_eq_true] at upper
    rw [toLower_of_not_isCapital upper]
    exact ascii c member

theorem isAscii_withBars (ascii : Text.isAscii cs = true) : Text.isAscii (withBars cs) = true := by
  simp only [Text.isAscii, List.all_eq_true, decide_eq_true_eq] at ascii ⊢
  intro c member
  obtain ⟨entry, listed, member⟩ := List.mem_flatMap.mp member
  have here := ascii entry.1 (List.fst_mem_of_mem_zipIdx listed)
  split at member
  · rcases List.mem_pair.mp member with rfl | rfl
    · decide
    · exact here
  · rwa [List.mem_singleton.mp member]

variable {s : String}

theorem toList_snake (ascii : Text.isAscii s.toList = true) :
    (snake s).toList = (withBars s.toList).map Char.toLower := by
  rw [snake, Text.toLower, String.toList_ofList, String.toList_ofList, split_eq_withBars]
  exact Text.lowerAfter_of_ascii (isAscii_withBars ascii) []

/-- A name in snake case has no boundaries left. -/
theorem snake_snake (ascii : Text.isAscii s.toList = true) : snake (snake s) = snake s := by
  have form := toList_snake ascii
  have again : Text.isAscii (snake s).toList = true := by
    rw [form]
    exact isAscii_map_toLower (isAscii_withBars ascii)
  have lower : ∀ c ∈ (snake s).toList, isCapital c = false := by
    rw [form]
    intro c member
    obtain ⟨d, _, rfl⟩ := List.mem_map.mp member
    exact isCapital_toLower d
  apply String.toList_inj.mp
  calc (snake (snake s)).toList
      = (withBars (snake s).toList).map Char.toLower := toList_snake again
    _ = (snake s).toList.map Char.toLower := by rw [withBars_of_lower lower]
    _ = (snake s).toList.map id :=
        List.map_congr_left fun c member => toLower_of_not_isCapital (lower c member)
    _ = (snake s).toList := List.map_id _

theorem filter_map_toLower (cs : List Char) :
    (cs.map Char.toLower).filter (· ≠ '_') = (cs.filter (· ≠ '_')).map Char.toLower := by
  rw [List.filter_map]
  refine congrArg _ (List.filter_congr fun c _ => ?_)
  simp

/-- The two substitutions of a name, one after the other, have one outcome: one bar before each
boundary and no other bars. The form in snake case is this in small letters. It is left as it is by
a second conversion, and without its bars it is the name in small letters without bars. -/
theorem snake_splits_at_boundaries (ascii : Text.isAscii s.toList = true) :
    (∀ barred, (∃ split, Bars smallRun capital s.toList split ∧
      Bars capital capitalWord split barred) ↔ barred = withBars s.toList) ∧
    (snake s).toList = (withBars s.toList).map Char.toLower ∧
    snake (snake s) = snake s ∧
    (snake s).toList.filter (· ≠ '_') = (s.toList.map Char.toLower).filter (· ≠ '_') := by
  refine ⟨bars_iff_eq_withBars s.toList, toList_snake ascii, snake_snake ascii, ?_⟩
  rw [toList_snake ascii, filter_map_toLower, filter_withBars, filter_map_toLower]

/-- Capitals in a row, digits behind a small letter and behind a capital, a bar, and a capital at
the end. -/
theorem snake_of_mixed_name :
    let s := "MyHTML2Parser_v22ValueX"
    Text.isAscii s.toList = true ∧ snake s = "my_html2parser_v22_value_x" ∧
      snake (snake s) = snake s := by
  intro s
  have ascii : Text.isAscii s.toList = true := by decide
  obtain ⟨_, bars, again, _⟩ := snake_splits_at_boundaries ascii
  exact ⟨ascii, String.toList_inj.mp (bars.trans (by decide)), again⟩

end Naming

end IdlGen
