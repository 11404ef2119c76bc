import IdlGen.Proofs.Literal.Integers
import IdlGen.Proofs.Literal.Quoting
import Mathlib.Data.List.TakeWhile

/-!
# Numbers and characters as tokens

A number is written with its decimal digits, and a character between single quotes. Both are one
token, and decoding the token gives the number or the character back.
-/

namespace IdlGen.Integer

variable {base n d : Nat} {c : Char} {cs : List Char} {v : Int}

theorem Numeral.concat (numeral : Numeral base cs n) (listed : (c, d) ∈ digits base) :
    Numeral base (cs ++ [c]) (n * base + d) := by
  obtain ⟨ds, _, each, rfl⟩ := numeral
  refine ⟨ds ++ [d], by simp, List.rel_append each (.cons listed .nil), ?_⟩
  rw [List.reverse_append, List.reverse_singleton, List.singleton_append, Nat.ofDigits_cons,
    Nat.add_comm, Nat.mul_comm]

theorem numeral_digit (listed : (c, d) ∈ digits base) : Numeral base [c] d :=
  ⟨[d], by simp, .cons listed .nil, by simp⟩

theorem numeral_toDigits (n : Nat) : Numeral 10 (Nat.toDigits 10 n) n := by
  have listed : ∀ d < 10, (Nat.digitChar d, d) ∈ digits 10 := by decide
  induction n using Nat.strongRecOn with
  | ind n ih =>
      rw [Nat.toDigits_eq_if (by decide)]
      split
      · next small => exact numeral_digit (listed n small)
      · have numeral := (ih (n / 10) (by omega)).concat (listed (n % 10) (by omega))
        rwa [show n / 10 * 10 + n % 10 = n by omega] at numeral

/-- A number is written with its digits, and a sign if it is below zero. -/
theorem decimal_toString (v : Int) : Decimal (toString v).toList v := by
  cases v with
  | ofNat n =>
      have written : (toString (Int.ofNat n)).toList = Nat.toDigits 10 n := by
        rw [Int.toString_eq_repr, Int.repr_eq_if]
        simp [Nat.repr_eq_ofList_toDigits]
      rw [written]
      exact .unsigned (numeral_toDigits n)
  | negSucc n =>
      have written : (toString (Int.negSucc n)).toList = '-' :: Nat.toDigits 10 (n + 1) := by
        rw [Int.toString_eq_repr, Int.repr_eq_if]
        simp [Nat.repr_eq_ofList_toDigits]
      rw [written]
      exact .minus (numeral_toDigits (n + 1))

theorem Numeral.isDigit_of_mem (numeral : Numeral 10 cs n) : ∀ c ∈ cs, Text.isDigit c := by
  have all : ∀ e ∈ digits 10, Text.isDigit e.1 := by decide +kernel
  intro c member
  obtain ⟨e, listed, rfl⟩ := List.mem_map.mp (numeral.isDigit member)
  exact all e listed

theorem Numeral.shape_digits (numeral : Numeral 10 cs n) : Shape.digits cs = cs.length := by
  rw [Shape.digits, Shape.run, List.takeWhile_eq_self_iff.mpr numeral.isDigit_of_mem]

theorem Numeral.shape_hexadecimal (numeral : Numeral 10 cs n) : Shape.hexadecimal cs = 0 := by
  unfold Shape.hexadecimal
  split
  · next x rest =>
      have member : x ∈ '0' :: x :: rest := by simp
      have other : ¬ (x = 'x' ∨ x = 'X') := by
        rintro (rfl | rfl)
        · exact numeral.not_mem (by decide) member
        · exact numeral.not_mem (by decide) member
      simp [not_or.mp other]
  · rfl

theorem Numeral.shape_sign (numeral : Numeral 10 cs n) : Shape.sign cs = 0 := by
  unfold Shape.sign
  split
  · exact absurd List.mem_cons_self (numeral.not_mem (by decide))
  · exact absurd List.mem_cons_self (numeral.not_mem (by decide))
  · rfl

/-- Behind its sign a literal is a numeral. -/
theorem Decimal.exists_numeral (decimal : Decimal cs v) :
    ∃ ds n, Numeral 10 ds n ∧ cs.drop (Shape.sign cs) = ds ∧
      cs.length = Shape.sign cs + ds.length := by
  cases decimal with
  | unsigned numeral => exact ⟨cs, _, numeral, by simp [numeral.shape_sign]⟩
  | plus numeral => exact ⟨_, _, numeral, rfl, Nat.add_comm _ _⟩
  | minus numeral => exact ⟨_, _, numeral, rfl, Nat.add_comm _ _⟩

theorem Decimal.shape_double (decimal : Decimal cs v) : Shape.double cs = 0 := by
  obtain ⟨ds, n, numeral, behind, _⟩ := decimal.exists_numeral
  rw [Shape.double, behind, numeral.shape_digits, List.drop_length]
  simp [Shape.exponent]

theorem Decimal.shape_integer (decimal : Decimal cs v) : Shape.integer cs = cs.length := by
  obtain ⟨ds, n, numeral, behind, size⟩ := decimal.exists_numeral
  rw [Shape.integer, behind, numeral.shape_hexadecimal, numeral.shape_digits, size]
  simp [numeral.ne_nil]

theorem Decimal.visible (decimal : Decimal cs v) :
    ∃ c rest, cs = c :: rest ∧ ¬ Text.isBlank c ∧ c ≠ '/' ∧ c ≠ '#' := by
  cases decimal with
  | unsigned numeral =>
      have all : ∀ e ∈ digits 10, ¬ Text.isBlank e.1 ∧ e.1 ≠ '/' ∧ e.1 ≠ '#' := by decide +kernel
      obtain ⟨c, rest, rfl⟩ := List.exists_cons_of_ne_nil numeral.ne_nil
      obtain ⟨e, listed, rfl⟩ := List.mem_map.mp (numeral.isDigit List.mem_cons_self)
      exact ⟨e.1, rest, rfl, all e listed⟩
  | plus _ | minus _ => exact ⟨_, _, rfl, by decide⟩

/-- A decimal literal is one token. -/
theorem Decimal.stands (decimal : Decimal cs v) : Language.definitions.Stands .integer cs := by
  obtain ⟨c, rest, rfl, visible, slash, hash⟩ := decimal.visible
  have double : Pattern.double.first? (c :: rest) = none := by
    rw [Pattern.double_reads, decimal.shape_double, if_pos rfl]
  have integer : Pattern.integer.first? (c :: rest) = some [] := by
    rw [Pattern.integer_reads, decimal.shape_integer, List.drop_length]
    rfl
  refine ⟨List.cons_ne_nil _ _, ?_⟩
  rw [Language.choose?_eq_or, Language.choose?_layout_cons visible slash hash, Option.none_or]
  simp [Alternative.choose?, Language.tokens, Language.alternatives, Language.layout, double,
    integer]

end IdlGen.Integer

namespace IdlGen.Spelling

open IdlGen.Language (definitions)

/-- A number of 64 bits can be read back. -/
theorem spans_int {v : Int} (fits : IntWidth.w64.holds v) :
    definitions.Spans [toString v] fun toks =>
      ∃ t, toks = [t] ∧ t.kind = .integer ∧ decodeInteger .w64 t.text = .ok v := by
  have decimal := Integer.decimal_toString v
  have read : Integer.read .w64 (toString v).toList = .ok v := by
    rw [decimal.read_eq, if_pos]
    simpa [IntWidth.holds] using fits
  refine (Language.Spans.single decimal.stands).mono ?_
  rintro toks ⟨t, only, kind, same⟩
  exact ⟨t, only, kind, decodeInteger_eq_ok_iff.mpr (same ▸ read)⟩

/-- A character as it is written between single quotes: these, the backslash and the line feed are
escaped. -/
def charBody (c : Char) : List Char :=
  if c = '\'' ∨ c = '\\' then ['\\', c] else if c = '\n' then ['\\', 'n'] else [c]

/-- A character between single quotes. -/
def charImage (c : Char) : String := String.ofList ('\'' :: (charBody c ++ ['\'']))

theorem charBody_cases (c : Char) :
    (∃ letter, charBody c = ['\\', letter] ∧ (letter, c) ∈ escapes) ∨
      charBody c = [c] ∧ c ≠ '\'' ∧ c ≠ '\\' ∧ c ≠ '\n' := by
  unfold charBody
  split
  · next special =>
      rcases special with rfl | rfl <;> exact .inl ⟨_, rfl, by decide⟩
  · next other =>
      split
      · next lineFeed => exact .inl ⟨'n', rfl, lineFeed ▸ by decide⟩
      · next proper => exact .inr ⟨rfl, (not_or.mp other).1, (not_or.mp other).2, proper⟩

theorem body_charBody (c : Char) : Body '\'' (charBody c) := by
  rcases charBody_cases c with ⟨letter, written, known⟩ | ⟨written, plain⟩
  · rw [written]
    exact body_of_known known
  · rw [written]
    exact .plain plain .done

@[simp] theorem decodeChar_charImage (c : Char) : decodeChar (charImage c) = .ok c := by
  rw [decodeChar, charImage, String.toList_ofList, stripMarks_quoted]
  rcases charBody_cases c with ⟨letter, written, known⟩ | ⟨written, _, plain, _⟩
  · rw [written]
    simp only [unescape?_eq_some_iff.mpr known, if_true]
  · rw [written]
    simp only [if_neg plain]

/-- Every character can be read back. -/
theorem spans_char (c : Char) :
    definitions.Spans [charImage c] fun toks =>
      ∃ t, toks = [t] ∧ t.kind = .char ∧ decodeChar t.text = .ok c := by
  have stands : definitions.Stands .char (charImage c).toList := by
    rw [charImage, String.toList_ofList]
    exact (body_charBody c).stands (by decide)
  refine (Language.Spans.single stands).mono ?_
  rintro toks ⟨t, only, kind, same⟩
  exact ⟨t, only, kind, same ▸ decodeChar_charImage c⟩

end IdlGen.Spelling
