import IdlGen.Literal.Spelling
import Mathlib.Data.List.Forall2
import Mathlib.Data.Nat.Digits.Defs

/-!
# Integer literals

An integer literal is digits with an optional sign, which name a number, or `0x` with hexadecimal
digits, which give the bits of one. Neither depends on a width. The reader goes through the digits
from the left and stops at the first that takes the number above a bound; since more digits never
make it smaller, it stops exactly where the whole literal is above the bound, however long it is.
-/

namespace IdlGen.Integer

variable {base bound n m d : Nat} {c : Char} {cs : List Char} {ds : List Nat} {w : IntWidth}
variable {v : Int}

/-- The digits of a base with their values. Letters can be small or capital. -/
def digits (base : Nat) : List (Char × Nat) :=
  ("0123456789abcdef".toList.take base).zipIdx ++ ("ABCDEF".toList.take (base - 10)).zipIdx 10

/-- One or more digits, and the number that they stand for in positional notation. -/
def Numeral (base : Nat) (cs : List Char) (n : Nat) : Prop :=
  ∃ ds, ds ≠ [] ∧ List.Forall₂ (fun c d => (c, d) ∈ digits base) cs ds ∧
    n = Nat.ofDigits base ds.reverse

/-- Decimal digits with an optional sign, and their value. -/
inductive Decimal : List Char → Int → Prop
  | unsigned {cs : List Char} {n : Nat} (numeral : Numeral 10 cs n) : Decimal cs n
  | plus {cs : List Char} {n : Nat} (numeral : Numeral 10 cs n) : Decimal ('+' :: cs) n
  | minus {cs : List Char} {n : Nat} (numeral : Numeral 10 cs n) : Decimal ('-' :: cs) (-n)

/-- Hexadecimal digits after `0x`, and their value without a sign. -/
inductive Hexadecimal : List Char → Nat → Prop
  | small {cs : List Char} {n : Nat} (numeral : Numeral 16 cs n) : Hexadecimal ('0' :: 'x' :: cs) n
  | capital {cs : List Char} {n : Nat} (numeral : Numeral 16 cs n) :
      Hexadecimal ('0' :: 'X' :: cs) n

/-- The bases that the digits of a literal can have. -/
def bases : List Nat := [10, 16]

/-- The characters from one to another, by their codes. -/
theorem mem_range'_of_between {first last : Char} (between : (first ≤ c && c ≤ last) = true) :
    c.toNat ∈ List.range' first.toNat (last.toNat + 1 - first.toNat) := by
  obtain ⟨low, high⟩ := Bool.and_eq_true_iff.mp between
  have low : first.toNat ≤ c.toNat := of_decide_eq_true low
  have high : c.toNat ≤ last.toNat := of_decide_eq_true high
  rw [List.mem_range'_1]
  omega

theorem mem_digits_of_digitValue? (known : base ∈ bases)
    (found : Text.digitValue? base c = some d) : (c, d) ∈ digits base := by
  have decimal : ∀ b ∈ bases, ∀ k ∈ List.range' 48 10, (Char.ofNat k, k - 48) ∈ digits b := by
    decide +kernel
  have small : ∀ k ∈ List.range' 97 6, (Char.ofNat k, k - 97 + 10) ∈ digits 16 := by
    decide +kernel
  have capital : ∀ k ∈ List.range' 65 6, (Char.ofNat k, k - 65 + 10) ∈ digits 16 := by
    decide +kernel
  unfold Text.digitValue? at found
  split at found
  · rename_i between
    cases found
    have listed := decimal base known _ (mem_range'_of_between between)
    rwa [Char.ofNat_toNat] at listed
  · split at found
    · rename_i between
      rw [Bool.and_assoc] at between
      obtain ⟨isHex, between⟩ := Bool.and_eq_true_iff.mp between
      cases of_decide_eq_true isHex
      cases found
      have listed := small _ (mem_range'_of_between between)
      rwa [Char.ofNat_toNat] at listed
    · split at found
      · rename_i between
        rw [Bool.and_assoc] at between
        obtain ⟨isHex, between⟩ := Bool.and_eq_true_iff.mp between
        cases of_decide_eq_true isHex
        cases found
        have listed := capital _ (mem_range'_of_between between)
        rwa [Char.ofNat_toNat] at listed
      · cases found

theorem digitValue?_of_mem_digits (known : base ∈ bases) (listed : (c, d) ∈ digits base) :
    Text.digitValue? base c = some d := by
  have all : ∀ b ∈ bases, ∀ e ∈ digits b, Text.digitValue? b e.1 = some e.2 := by
    decide +kernel
  exact all base known (c, d) listed

theorem ofDigits_reverse_eq_foldl (base : Nat) (ds : List Nat) :
    Nat.ofDigits base ds.reverse = ds.foldl (fun n d => n * base + d) 0 := by
  rw [Nat.ofDigits_eq_foldr, List.foldr_reverse]
  simp only [Nat.cast_id, Nat.add_comm, Nat.mul_comm]

/-- Further digits never make a number smaller. -/
theorem le_foldl_digits (positive : 0 < base) (n : Nat) (ds : List Nat) :
    n ≤ ds.foldl (fun n d => n * base + d) n := by
  induction ds generalizing n with
  | nil => exact Nat.le_refl n
  | cons d ds ih =>
      have grows : n ≤ n * base := Nat.le_mul_of_pos_right n positive
      have further := ih (n * base + d)
      rw [List.foldl_cons]
      omega

/-- Digits are read in full, unless the number that they stand for is above the bound. -/
theorem readDigits_of_digits (known : base ∈ bases)
    (listed : List.Forall₂ (fun c d => (c, d) ∈ digits base) cs ds) (fits : n ≤ bound) :
    readDigits base bound n cs =
      if bound < ds.foldl (fun n d => n * base + d) n then .error .outOfRange
      else .ok (ds.foldl (fun n d => n * base + d) n) := by
  induction listed generalizing n with
  | nil => rw [readDigits, List.foldl_nil, if_neg (Nat.not_lt.mpr fits)]
  | @cons c d cs ds here _ ih =>
      rw [readDigits, digitValue?_of_mem_digits known here, List.foldl_cons]
      dsimp only
      split
      · rename_i above
        -- The number stays above the bound, so the digits that are not looked at do not matter.
        have positive : 0 < base := by
          have all : ∀ b ∈ bases, 0 < b := by decide
          exact all base known
        have further := le_foldl_digits positive (n * base + d) ds
        rw [if_pos (Nat.lt_of_lt_of_le above further)]
      · rename_i below
        exact ih (Nat.not_lt.mp below)

/-- What is read as a number is made of digits. -/
theorem digits_of_readDigits (known : base ∈ bases) (read : readDigits base bound n cs = .ok m) :
    ∃ ds, List.Forall₂ (fun c d => (c, d) ∈ digits base) cs ds := by
  induction cs generalizing n with
  | nil => exact ⟨[], .nil⟩
  | cons c cs ih =>
      rw [readDigits] at read
      split at read
      · cases read
      · rename_i d found
        split at read
        · cases read
        · obtain ⟨ds, listed⟩ := ih read
          exact ⟨d :: ds, .cons (mem_digits_of_digitValue? known found) listed⟩

theorem Numeral.ne_nil (numeral : Numeral base cs n) : cs ≠ [] := by
  obtain ⟨ds, nonempty, listed, _⟩ := numeral
  rintro rfl
  cases listed
  exact nonempty rfl

theorem Numeral.isDigit (numeral : Numeral base cs n) (member : c ∈ cs) :
    c ∈ (digits base).map Prod.fst := by
  obtain ⟨ds, _, listed, _⟩ := numeral
  obtain ⟨i, bound, rfl⟩ := List.mem_iff_getElem.mp member
  have here := listed.get bound (listed.length_eq ▸ bound)
  exact List.mem_map_of_mem (f := Prod.fst) here

/-- A numeral is read as its number, unless that is above the bound. -/
theorem Numeral.readDigits_eq (known : base ∈ bases) (numeral : Numeral base cs n) :
    readDigits base bound 0 cs = if bound < n then .error .outOfRange else .ok n := by
  obtain ⟨ds, _, listed, rfl⟩ := numeral
  rw [ofDigits_reverse_eq_foldl]
  exact readDigits_of_digits known listed (Nat.zero_le bound)

/-- Only numerals are read. -/
theorem exists_numeral_of_readDigits (known : base ∈ bases) (nonempty : cs ≠ [])
    (read : readDigits base bound 0 cs = .ok m) : ∃ n, Numeral base cs n := by
  obtain ⟨ds, listed⟩ := digits_of_readDigits known read
  refine ⟨_, ds, ?_, listed, rfl⟩
  rintro rfl
  cases listed
  exact nonempty rfl

theorem read_eq_readDecimal (other : ∀ x ∈ ['x', 'X'], ¬ ['0', x] <+: cs) :
    read w cs = readDecimal w cs := by
  unfold read
  split
  · exact absurd ⟨_, rfl⟩ (other 'x' (by decide))
  · exact absurd ⟨_, rfl⟩ (other 'X' (by decide))
  · rfl

theorem readDecimal_unsigned (nonempty : cs ≠ []) (unsigned : ∀ c ∈ cs.head?, c ≠ '-' ∧ c ≠ '+') :
    readDecimal w cs = (readDigits 10 w.max.toNat 0 cs).map Int.ofNat := by
  unfold readDecimal
  split
  · exact absurd rfl (unsigned '-' rfl).1
  · exact absurd rfl (unsigned '+' rfl).2
  · simp only [List.isEmpty_iff, if_neg nonempty]

theorem readDecimal_plus (nonempty : cs ≠ []) :
    readDecimal w ('+' :: cs) = (readDigits 10 w.max.toNat 0 cs).map Int.ofNat := by
  simp [readDecimal, nonempty]

theorem readDecimal_minus (nonempty : cs ≠ []) :
    readDecimal w ('-' :: cs) = (readDigits 10 (-w.min).toNat 0 cs).map (-Int.ofNat ·) := by
  simp only [readDecimal, List.isEmpty_iff, if_neg nonempty]
  cases readDigits 10 (-w.min).toNat 0 cs <;> rfl

theorem Numeral.not_mem (numeral : Numeral 10 cs n) (mark : c ∈ ['x', 'X', '-', '+']) :
    c ∉ cs := by
  have others : ∀ e ∈ digits 10, e.1 ∉ ['x', 'X', '-', '+'] := by decide
  intro member
  obtain ⟨e, listed, rfl⟩ := List.mem_map.mp (numeral.isDigit member)
  exact others e listed mark

/-- A numeral with no sign is no hexadecimal literal. -/
theorem Numeral.read_eq (numeral : Numeral 10 cs n) :
    read w cs = (readDigits 10 w.max.toNat 0 cs).map Int.ofNat := by
  rw [read_eq_readDecimal, readDecimal_unsigned numeral.ne_nil]
  · intro c first
    have member : c ∈ cs := List.mem_of_head? first
    constructor
    · rintro rfl
      exact numeral.not_mem (by decide) member
    · rintro rfl
      exact numeral.not_mem (by decide) member
  · rintro x marked ⟨rest, rfl⟩
    have listed : x ∈ ['x', 'X', '-', '+'] := List.mem_append_left ['-', '+'] marked
    exact numeral.not_mem listed (by simp)

theorem min_neg_max_pos (w : IntWidth) : w.min < 0 ∧ 0 < w.max := by cases w <;> decide

theorem Numeral.map_readDigits (w : IntWidth) (numeral : Numeral 10 cs n) :
    (readDigits 10 w.max.toNat 0 cs).map Int.ofNat =
      if w.min ≤ n ∧ n ≤ w.max then .ok (n : Int) else .error .outOfRange := by
  have sizes := min_neg_max_pos w
  rw [numeral.readDigits_eq (by decide)]
  by_cases above : w.max.toNat < n
  · rw [if_pos above, if_neg (by omega)]
    rfl
  · rw [if_neg above, if_pos (by omega)]
    rfl

/-- A decimal literal is read as its number, unless that is out of range. -/
theorem Decimal.read_eq (w : IntWidth) (decimal : Decimal cs v) :
    read w cs = if w.min ≤ v ∧ v ≤ w.max then .ok v else .error .outOfRange := by
  cases decimal with
  | unsigned numeral =>
      rw [numeral.read_eq]
      exact numeral.map_readDigits w
  | plus numeral =>
      rw [read_eq_readDecimal (by simp), readDecimal_plus numeral.ne_nil]
      exact numeral.map_readDigits w
  | @minus cs n numeral =>
      have sizes := min_neg_max_pos w
      rw [read_eq_readDecimal (by simp), readDecimal_minus numeral.ne_nil,
        numeral.readDigits_eq (by decide)]
      by_cases below : (-w.min).toNat < n
      · rw [if_pos below, if_neg (by omega)]
        rfl
      · rw [if_neg below, if_pos (by omega)]
        rfl

theorem readHex_of_numeral (w : IntWidth) (numeral : Numeral 16 cs n) :
    readHex w cs =
      if n < 2 ^ w.bits then .ok (BitVec.ofNat w.bits n).toInt else .error .outOfRange := by
  have wide : 2 ^ w.bits ≤ Nat.pow 2 (2 * w.bits - 1) - 1 := by cases w <;> decide
  rw [readHex, numeral.readDigits_eq (by decide)]
  by_cases above : Nat.pow 2 (2 * w.bits - 1) - 1 < n
  · rw [if_pos above, if_neg (by omega)]
    rfl
  · rw [if_neg above]
    change (if 2 ^ w.bits ≤ n then _ else _) = _
    by_cases fits : n < 2 ^ w.bits
    · rw [if_pos fits, if_neg (by omega), BitVec.toInt_ofNat']
      rfl
    · rw [if_neg fits, if_pos (by omega)]

/-- A hexadecimal literal is read as the number of its bits, unless there are too many of them. -/
theorem Hexadecimal.read_eq (w : IntWidth) (hex : Hexadecimal cs n) :
    read w cs =
      if n < 2 ^ w.bits then .ok (BitVec.ofNat w.bits n).toInt else .error .outOfRange := by
  cases hex with
  | small numeral | capital numeral =>
      rw [← readHex_of_numeral w numeral]
      obtain ⟨d, rest, rfl⟩ := List.exists_cons_of_ne_nil numeral.ne_nil
      rfl

theorem exists_numeral_of_map {f : Nat → Int} (nonempty : cs ≠ [])
    (read : (readDigits 10 bound 0 cs).map f = .ok v) : ∃ n, Numeral 10 cs n := by
  cases answer : readDigits 10 bound 0 cs with
  | error e =>
      rw [answer] at read
      cases read
  | ok m => exact exists_numeral_of_readDigits (by decide) nonempty answer

theorem exists_decimal_of_readDecimal (read : readDecimal w cs = .ok v) : ∃ n, Decimal cs n := by
  cases cs with
  | nil => cases read
  | cons c rest =>
      by_cases signed : c = '-' ∨ c = '+'
      · have behind : rest ≠ [] := by
          rintro rfl
          rcases signed with rfl | rfl <;> cases read
        rcases signed with rfl | rfl
        · rw [readDecimal_minus behind] at read
          obtain ⟨n, numeral⟩ := exists_numeral_of_map behind read
          exact ⟨_, .minus numeral⟩
        · rw [readDecimal_plus behind] at read
          obtain ⟨n, numeral⟩ := exists_numeral_of_map behind read
          exact ⟨_, .plus numeral⟩
      · have unsigned : ∀ x ∈ (c :: rest).head?, x ≠ '-' ∧ x ≠ '+' := by
          rintro x ⟨⟩
          exact not_or.mp signed
        rw [readDecimal_unsigned (List.cons_ne_nil c rest) unsigned] at read
        obtain ⟨n, numeral⟩ := exists_numeral_of_map (List.cons_ne_nil c rest) read
        exact ⟨_, .unsigned numeral⟩

theorem exists_numeral_of_readHex (nonempty : cs ≠ []) (read : readHex w cs = .ok v) :
    ∃ n, Numeral 16 cs n := by
  unfold readHex at read
  cases answer : readDigits 16 (Nat.pow 2 (2 * w.bits - 1) - 1) 0 cs with
  | error e =>
      rw [answer] at read
      cases read
  | ok m => exact exists_numeral_of_readDigits (by decide) nonempty answer

/-- Only decimal and hexadecimal literals are read. -/
theorem written_of_read (read : read w cs = .ok v) :
    (∃ n, Decimal cs n) ∨ ∃ n, Hexadecimal cs n := by
  unfold Integer.read at read
  split at read
  · obtain ⟨n, numeral⟩ := exists_numeral_of_readHex (List.cons_ne_nil _ _) read
    exact .inr ⟨n, .small numeral⟩
  · obtain ⟨n, numeral⟩ := exists_numeral_of_readHex (List.cons_ne_nil _ _) read
    exact .inr ⟨n, .capital numeral⟩
  · exact .inl (exists_decimal_of_readDecimal read)

end IdlGen.Integer

namespace IdlGen

theorem IntWidth.min_eq (w : IntWidth) : w.min = -2 ^ (w.bits - 1) := by cases w <;> decide

theorem IntWidth.max_eq (w : IntWidth) : w.max = 2 ^ (w.bits - 1) - 1 := by cases w <;> decide

namespace Spelling

open Integer (Decimal Hexadecimal)

/-- The reader of integers decides on the answer. -/
@[simp] theorem decodeInteger_eq_ok_iff {w : IntWidth} {image : String} {v : Int} :
    decodeInteger w image = .ok v ↔ Integer.read w image.toList = .ok v := by
  unfold decodeInteger
  split <;> simp_all

theorem decodeInteger_of_outOfRange {w : IntWidth} {image : String}
    (read : Integer.read w image.toList = .error .outOfRange) :
    decodeInteger w image = .error (.integerOutOfRange w image) := by
  rw [decodeInteger, read]

/-- An integer literal is accepted exactly if it is a decimal number of the signed range, or a
hexadecimal number of the unsigned range, which then stands for the two's complement number of its
bits. A decimal or hexadecimal number that does not fit is out of range, however long it is written;
everything else is refused. -/
theorem decodeInteger_exact (w : IntWidth) (image : String) :
    (∀ v, decodeInteger w image = .ok v ↔
      Decimal image.toList v ∧ -2 ^ (w.bits - 1) ≤ v ∧ v ≤ 2 ^ (w.bits - 1) - 1 ∨
        ∃ n, Hexadecimal image.toList n ∧ n < 2 ^ w.bits ∧ v = (BitVec.ofNat w.bits n).toInt) ∧
    (∀ n, Decimal image.toList n → ¬ (-2 ^ (w.bits - 1) ≤ n ∧ n ≤ 2 ^ (w.bits - 1) - 1) →
      decodeInteger w image = .error (.integerOutOfRange w image)) ∧
    (∀ n, Hexadecimal image.toList n → 2 ^ w.bits ≤ n →
      decodeInteger w image = .error (.integerOutOfRange w image)) ∧
    ((∀ n, ¬ Decimal image.toList n) → (∀ n, ¬ Hexadecimal image.toList n) →
      ∃ e, decodeInteger w image = .error e) := by
  rw [← w.min_eq, ← w.max_eq]
  refine ⟨fun v => ?_, fun n decimal unfit => ?_, fun n hex above => ?_,
    fun notDecimal notHex => ?_⟩
  · rw [decodeInteger_eq_ok_iff]
    constructor
    · intro read
      rcases Integer.written_of_read read with ⟨n, decimal⟩ | ⟨n, hex⟩
      · rw [decimal.read_eq] at read
        split at read
        · cases read
          exact .inl ⟨decimal, ‹_›⟩
        · cases read
      · rw [hex.read_eq] at read
        split at read
        · cases read
          exact .inr ⟨n, hex, ‹_›, rfl⟩
        · cases read
    · rintro (⟨decimal, fits⟩ | ⟨n, hex, fits, rfl⟩)
      · rw [decimal.read_eq, if_pos fits]
      · rw [hex.read_eq, if_pos fits]
  · exact decodeInteger_of_outOfRange (by rw [decimal.read_eq, if_neg unfit])
  · exact decodeInteger_of_outOfRange (by rw [hex.read_eq, if_neg (Nat.not_lt.mpr above)])
  · cases answer : decodeInteger w image with
    | error e => exact ⟨e, rfl⟩
    | ok v =>
        have read := decodeInteger_eq_ok_iff.mp answer
        rcases Integer.written_of_read read with ⟨n, decimal⟩ | ⟨n, hex⟩
        · exact absurd decimal (notDecimal n)
        · exact absurd hex (notHex n)

end Spelling

end IdlGen
