import IdlGen.Proofs.Token.Pattern

/-!
# The patterns of lexemes

Each class of lexemes has a pattern, and its shape reads what the pattern reads. The shapes of runs,
comments and names follow their patterns closely. A number is read without trying its alternatives
one after the other, and a quoted text without going back from its end, so there the agreement rests
on what the parts of the pattern cannot begin with.
-/

namespace IdlGen

/-- A comment with the given opening goes to the first end mark behind it. -/
def Shape.comment (opening cs : List Char) : Nat :=
  if opening <+: cs then
    ((Shape.beforeClose? (cs.drop opening.length)).map (opening.length + · + 2)).getD 0
  else 0

theorem Shape.docComment_eq (cs : List Char) :
    Shape.docComment cs = Shape.comment ['/', '*', '*'] cs := by
  fun_cases Shape.docComment cs with
  | case1 rest n found => simp [Shape.comment, found]
  | case2 rest missing => simp [Shape.comment, missing]
  | case3 cs unopened =>
      exact (if_neg fun ⟨rest, same⟩ => unopened rest same.symm).symm

theorem Shape.blockComment_eq (cs : List Char) :
    Shape.blockComment cs = Shape.comment ['/', '*'] cs := by
  fun_cases Shape.blockComment cs with
  | case1 rest n found => simp [Shape.comment, found]
  | case2 rest missing => simp [Shape.comment, missing]
  | case3 cs unopened =>
      exact (if_neg fun ⟨rest, same⟩ => unopened rest same.symm).symm

namespace Pattern

def any : Pattern := char fun _ => true

def blanks : Pattern := oneOrMore (char Text.isBlank)

def docComment : Pattern := seq (literal ['/', '*', '*']) (seq (few any) (literal ['*', '/']))

def blockComment : Pattern := seq (literal ['/', '*']) (seq (few any) (literal ['*', '/']))

def lineComment : Pattern :=
  seq (either (literal ['/', '/']) (literal ['#'])) (many (char (· ≠ '\n')))

def sign : Pattern := optional (char fun c => c = '+' || c = '-')

def digits : Pattern := oneOrMore (char Text.isDigit)

def exponent : Pattern := seq (char fun c => c = 'e' || c = 'E') (seq sign digits)

/-- A point after digits, a point before digits, or an exponent after digits. -/
def unsignedDouble : Pattern :=
  either
    (seq digits (seq (literal ['.']) (seq (many (char Text.isDigit)) (optional exponent)))) <|
  either
    (seq (literal ['.']) (seq digits (optional exponent))) <|
  seq digits exponent

def double : Pattern := seq sign unsignedDouble

def hexadecimal : Pattern :=
  seq (literal ['0']) (seq (char fun c => c = 'x' || c = 'X') (oneOrMore (char Text.isHexDigit)))

def integer : Pattern := seq sign (either hexadecimal digits)

/-- A character of a quoted text, or a backslash with the character after it. -/
def quotedChar (mark : Char) : Pattern :=
  either (char fun c => c ≠ mark && c ≠ '\\' && c ≠ '\n')
    (seq (char (· = '\\')) (char (· ≠ '\n')))

def quoted (mark : Char) : Pattern :=
  seq (char (· = mark)) (seq (many (quotedChar mark)) (char (· = mark)))

def name : Pattern := seq (char Shape.isNameStart) (many (char Shape.isNameChar))

def dottedName : Pattern := seq name (many (seq (char (· = '.')) name))

variable {p q : Pattern} {c : Char} {cs rest : List Char}

theorem oneOrMore_reads (test : Char → Bool) : (oneOrMore (char test)).Reads (Shape.run test) := by
  intro cs
  cases cs with
  | nil => rfl
  | cons c rest =>
      rw [oneOrMore, first?_seq_char_cons, first?_many_char, ← drop_run]
      by_cases accepted : test c <;> simp [Shape.run, accepted]

@[simp] theorem first?_seq_literal {text : List Char} :
    (seq (literal text) q).first? cs =
      if text <+: cs then q.first? (cs.drop text.length) else none := by
  induction text generalizing cs with
  | nil => simp [literal]
  | cons x text ih =>
      change (seq (seq (char (· = x)) (literal text)) q).first? cs = _
      rw [first?_seq_seq]
      cases cs with
      | nil => simp
      | cons c rest =>
          rw [first?_seq_char_cons, ih]
          by_cases same : c = x
          · simp [same, List.cons_prefix_cons]
          · simp [same, List.cons_prefix_cons, Ne.symm same]

@[simp] theorem first?_literal {text : List Char} :
    (literal text).first? cs = if text <+: cs then some (cs.drop text.length) else none := by
  have same : (seq (literal text) nothing).first? cs = (literal text).first? cs := by
    simp [first?, ends]
  rw [← same, first?_seq_literal, first?_nothing]

/-- Reading as little as possible stops at the first place where the rest can be read. -/
theorem first?_seq_few_any :
    (seq (few any) q).first? (c :: rest) =
      (q.first? (c :: rest)).or ((seq (few any) q).first? rest) := by
  have stops : (few any).ends (c :: rest) = (c :: rest) :: (few any).ends rest := by
    simp [ends, any, reluctant]
  rw [first?_seq, first?_seq, stops, List.findSome?_cons]
  cases q.first? (c :: rest) <;> rfl

/-- The rest of a comment goes to the first end mark. -/
@[simp] theorem first?_close :
    (seq (few any) (literal ['*', '/'])).first? cs =
      (Shape.beforeClose? cs).map fun n => cs.drop (n + 2) := by
  induction cs using Shape.beforeClose?.induct with
  | case1 rest => simp [first?_seq_few_any, Shape.beforeClose?]
  | case2 c rest notHere ih =>
      have notClosed : ¬ ['*', '/'] <+: c :: rest := by
        rintro ⟨back, same⟩
        cases same
        exact notHere back rfl rfl
      rw [first?_seq_few_any, first?_literal, if_neg notClosed, ih, Shape.beforeClose?]
      · cases Shape.beforeClose? rest <;> simp
      · exact notHere
  | case3 => rfl

theorem comment_reads (opening : List Char) :
    (seq (literal opening) (seq (few any) (literal ['*', '/']))).Reads (Shape.comment opening) := by
  intro cs
  rw [first?_seq_literal, first?_close, Shape.comment]
  by_cases opened : opening <+: cs
  · rw [if_pos opened, if_pos opened]
    cases Shape.beforeClose? (cs.drop opening.length) with
    | none => rfl
    | some n => simp [Nat.add_assoc]
  · rw [if_neg opened, if_neg opened, if_pos rfl]

theorem docComment_reads : docComment.Reads Shape.docComment := by
  intro cs
  rw [Shape.docComment_eq]
  exact comment_reads ['/', '*', '*'] cs

theorem blockComment_reads : blockComment.Reads Shape.blockComment := by
  intro cs
  rw [Shape.blockComment_eq]
  exact comment_reads ['/', '*'] cs

theorem lineComment_reads : lineComment.Reads Shape.lineComment := by
  intro cs
  rw [lineComment, first?_seq_either, first?_seq_literal, first?_seq_literal, first?_many_char,
    first?_many_char, ← drop_run, ← drop_run]
  fun_cases Shape.lineComment cs with
  | case1 rest => simp [List.cons_prefix_cons, ← List.drop_drop]
  | case2 rest => simp [List.cons_prefix_cons, ← List.drop_drop]
  | case3 cs notSlashes notHash =>
      have slashes : ¬ ['/', '/'] <+: cs := fun ⟨rest, same⟩ => notSlashes rest same.symm
      have hash : ¬ ['#'] <+: cs := fun ⟨rest, same⟩ => notHash rest same.symm
      simp [slashes, hash]

/-- What has a sign in front is read after the sign, if it cannot begin with one itself. -/
theorem signed_reads {unsigned shape : List Char → Nat} (reads : p.Reads unsigned)
    (refuses : ∀ c rest, c = '+' ∨ c = '-' → p.first? (c :: rest) = none)
    (signed : ∀ cs, shape cs =
      if unsigned (cs.drop (Shape.sign cs)) = 0 then 0
      else Shape.sign cs + unsigned (cs.drop (Shape.sign cs))) :
    (seq sign p).Reads shape := by
  intro cs
  have afterSign : (seq sign p).first? cs = p.first? (cs.drop (Shape.sign cs)) := by
    rw [sign, optional, first?_seq_either, first?_seq_nothing]
    fun_cases Shape.sign cs with
    | case1 rest => simp [refuses '+' rest (.inl rfl)]
    | case2 rest => simp [refuses '-' rest (.inr rfl)]
    | case3 cs notPlus notMinus =>
        cases cs with
        | nil => rfl
        | cons c rest =>
            have plus : c ≠ '+' := fun same => notPlus rest (by rw [same])
            have minus : c ≠ '-' := fun same => notMinus rest (by rw [same])
            simp [plus, minus]
  rw [afterSign, reads, signed]
  by_cases missing : unsigned (cs.drop (Shape.sign cs)) = 0
  · simp [missing]
  · simp [missing]

theorem digits_reads : digits.Reads Shape.digits := oneOrMore_reads Text.isDigit

/-- Digits are read in full by what comes after them, if that cannot begin with a digit. -/
@[simp]
theorem first?_seq_digits (refuses : ∀ c rest, Text.isDigit c → q.first? (c :: rest) = none) :
    (seq digits q).first? cs =
      if Shape.digits cs = 0 then none else q.first? (cs.drop (Shape.digits cs)) := by
  rw [digits, oneOrMore, first?_seq_seq]
  cases cs with
  | nil => rfl
  | cons c rest =>
      rw [first?_seq_char_cons, first?_seq_many_char refuses, ← drop_run]
      by_cases accepted : Text.isDigit c <;> simp [Shape.digits, Shape.run, accepted]

theorem exponent_reads : exponent.Reads Shape.exponent := by
  have signed : (seq sign digits).Reads fun cs =>
      if Shape.digits (cs.drop (Shape.sign cs)) = 0 then 0
      else Shape.sign cs + Shape.digits (cs.drop (Shape.sign cs)) := by
    apply signed_reads digits_reads
    · rintro c rest (rfl | rfl) <;> rfl
    · intro cs
      rfl
  intro cs
  cases cs with
  | nil => rfl
  | cons c rest =>
      rw [exponent, first?_seq_char_cons, signed]
      by_cases marked : c = 'e' || c = 'E'
      · by_cases missing : Shape.digits (rest.drop (Shape.sign rest)) = 0
        · simp [Shape.exponent, marked, missing]
        · have length : 1 + Shape.sign rest + Shape.digits (rest.drop (Shape.sign rest)) =
              Shape.sign rest + Shape.digits (rest.drop (Shape.sign rest)) + 1 := by omega
          simp [Shape.exponent, marked, missing, length]
      · simp [Shape.exponent, marked]

/-- An exponent that may be missing. -/
theorem first?_optional_exponent :
    (optional exponent).first? cs = some (cs.drop (Shape.exponent cs)) := by
  rw [first?_optional, exponent_reads]
  by_cases missing : Shape.exponent cs = 0 <;> simp [missing]

/-- The characters after the point: digits, and an exponent that may be missing. -/
def fraction (cs : List Char) : Nat := Shape.digits cs + Shape.exponent (cs.drop (Shape.digits cs))

@[simp] theorem first?_fraction :
    (seq (many (char Text.isDigit)) (optional exponent)).first? cs =
      some (cs.drop (fraction cs)) := by
  rw [first?_seq_of_isSome (by simp), first?_many_char, Option.bind_some, first?_optional_exponent,
    fraction, ← List.drop_drop, ← drop_run]
  rfl

@[simp] theorem first?_digits_fraction :
    (seq digits (optional exponent)).first? cs =
      if Shape.digits cs = 0 then none else some (cs.drop (fraction cs)) := by
  rw [first?_seq_of_isSome (by simp), digits_reads]
  by_cases missing : Shape.digits cs = 0
  · simp [missing]
  · simp only [missing, if_false, Option.bind_some, first?_optional_exponent, fraction,
      List.drop_drop]

/-- The characters of a number without a sign, if it has a point or an exponent. -/
def unsignedLength (cs : List Char) : Nat :=
  let rest := cs.drop (Shape.digits cs)
  if ['.'] <+: rest then
    if Shape.digits cs = 0 && Shape.digits rest.tail = 0 then 0
    else Shape.digits cs + 1 + fraction rest.tail
  else if Shape.digits cs = 0 || Shape.exponent rest = 0 then 0
  else Shape.digits cs + Shape.exponent rest

theorem unsignedDouble_reads : unsignedDouble.Reads unsignedLength := by
  intro cs
  have point : ∀ c rest, Text.isDigit c →
      (seq (literal ['.']) (seq (many (char Text.isDigit)) (optional exponent))).first?
        (c :: rest) = none := by
    intro c rest digit
    have different : '.' ≠ c := by
      rintro rfl
      exact absurd digit (by decide)
    simp [List.cons_prefix_cons, different]
  have mark : ∀ c rest, Text.isDigit c → exponent.first? (c :: rest) = none := by
    intro c rest digit
    have small : c ≠ 'e' := by
      rintro rfl
      exact absurd digit (by decide)
    have large : c ≠ 'E' := by
      rintro rfl
      exact absurd digit (by decide)
    simp [exponent, small, large]
  rw [unsignedDouble, first?_either, first?_either, first?_seq_digits point, first?_seq_digits mark,
    first?_seq_literal, first?_seq_literal, first?_fraction, first?_digits_fraction, exponent_reads]
  by_cases whole : Shape.digits cs = 0
  · -- Without digits in front, only a point can follow.
    by_cases dotted : ['.'] <+: cs
    · by_cases part : Shape.digits cs.tail = 0
      · simp [unsignedLength, whole, dotted, part]
      · simp [unsignedLength, whole, dotted, part, Nat.add_comm 1]
    · simp [unsignedLength, whole, dotted]
  · have behind : ¬ ['.'] <+: cs := by
      rintro ⟨rest, rfl⟩
      exact whole rfl
    by_cases dotted : ['.'] <+: cs.drop (Shape.digits cs)
    · simp [unsignedLength, whole, dotted, behind]
    · by_cases missing : Shape.exponent (cs.drop (Shape.digits cs)) = 0
      · simp [unsignedLength, whole, dotted, behind, missing]
      · simp [unsignedLength, whole, dotted, behind, missing]

theorem double_reads : double.Reads Shape.double := by
  apply signed_reads unsignedDouble_reads
  · rintro c rest (rfl | rfl) <;> rfl
  · intro cs
    simp only [Shape.double]
    generalize cs.drop (Shape.sign cs) = body
    split
    · rename_i rest here
      by_cases missing : Shape.digits body = 0 && Shape.digits rest = 0
      · have length : unsignedLength body = 0 := by simp [unsignedLength, here, missing]
        rw [if_pos missing, length, if_pos rfl]
      · have length : unsignedLength body = Shape.digits body + 1 + fraction rest := by
          simp [unsignedLength, here, missing]
        rw [if_neg missing, length, if_neg (by omega), fraction]
        omega
    · rename_i rest undotted
      have dotted : ¬ ['.'] <+: body.drop (Shape.digits body) := by
        rintro ⟨rest, here⟩
        exact undotted rest here.symm
      by_cases missing : Shape.digits body = 0 || Shape.exponent (body.drop (Shape.digits body)) = 0
      · have length : unsignedLength body = 0 := by simp [unsignedLength, dotted, missing]
        rw [if_pos missing, length, if_pos rfl]
      · have length : unsignedLength body =
            Shape.digits body + Shape.exponent (body.drop (Shape.digits body)) := by
          simp [unsignedLength, dotted, missing]
        have whole : Shape.digits body ≠ 0 := by simp_all
        rw [if_neg missing, length, if_neg (by omega)]
        omega

theorem hexadecimal_reads : hexadecimal.Reads Shape.hexadecimal := by
  intro cs
  rw [hexadecimal, first?_seq_literal]
  fun_cases Shape.hexadecimal cs with
  | case1 x rest d accepted =>
      have marked : x = 'x' ∨ x = 'X' := by simp_all
      have found : d ≠ 0 := by simp_all
      simp [oneOrMore_reads Text.isHexDigit rest, d, marked, found, ← List.drop_drop]
  | case2 x rest d refused =>
      by_cases marked : x = 'x' ∨ x = 'X'
      · have missing : d = 0 := by simp_all
        simp [oneOrMore_reads Text.isHexDigit rest, d, missing]
      · simp [marked]
  | case3 cs short =>
      cases cs with
      | nil => rfl
      | cons c rest =>
          cases rest with
          | nil => simp
          | cons x rest =>
              have other : '0' ≠ c := fun zero => short x rest (by rw [zero])
              simp [List.cons_prefix_cons, other]

theorem integer_reads : integer.Reads Shape.integer := by
  have unsigned : (either hexadecimal digits).Reads fun cs =>
      if Shape.hexadecimal cs = 0 then Shape.digits cs else Shape.hexadecimal cs := by
    intro cs
    rw [first?_either, hexadecimal_reads, digits_reads]
    by_cases decimal : Shape.hexadecimal cs = 0
    · simp [decimal]
    · simp [decimal]
  apply signed_reads unsigned
  · rintro c rest (rfl | rfl) <;> rfl
  · intro cs
    rfl

@[simp] theorem shrinks_quotedChar {mark : Char} : (quotedChar mark).Shrinks :=
  shrinks_char.either shrinks_char.seq

/-- The rest of a quoted text goes to the first mark that no backslash hides. Going back from there
finds no other mark, since a mark is never read as a character of the text. -/
@[simp] theorem first?_closing {mark : Char} (plain : mark ≠ '\\' ∧ mark ≠ '\n') :
    (seq (many (quotedChar mark)) (char (· = mark))).first? cs =
      (Shape.closing? mark cs).map fun n => cs.drop n := by
  have unroll : ∀ c rest, (seq (many (quotedChar mark)) (char (· = mark))).first? (c :: rest) =
      ((if c ≠ mark && c ≠ '\\' && c ≠ '\n' then
          (seq (many (quotedChar mark)) (char (· = mark))).first? rest else none).or
        (if c = '\\' then
          (seq (char (· ≠ '\n')) (seq (many (quotedChar mark)) (char (· = mark)))).first? rest
        else none)).or (if c = mark then some rest else none) := by
    intro c rest
    rw [first?_seq_many shrinks_quotedChar]
    simp only [quotedChar, first?_seq_either, first?_seq_seq, first?_seq_char_cons,
      first?_char_cons, decide_eq_true_eq]
  obtain ⟨notBackslash, notLineFeed⟩ := plain
  fun_induction Shape.closing? mark cs with
  | case1 => rfl
  | case2 rest => simp [unroll, notBackslash]
  | case3 rest other => simp [unroll, other]
  | case4 other => simp [unroll, other]
  | case5 rest other => simp [unroll, other]
  | case6 d rest proper other _ ih =>
      rw [unroll, first?_seq_char_cons, ih]
      cases Shape.closing? mark rest <;> simp [other, proper]
  | case7 c rest notMark proper other ih =>
      rw [unroll, ih]
      cases Shape.closing? mark rest <;> simp [notMark, other, proper]

theorem quoted_reads {mark : Char} (plain : mark ≠ '\\' ∧ mark ≠ '\n') :
    (quoted mark).Reads (Shape.quoted mark) := by
  intro cs
  cases cs with
  | nil => rfl
  | cons c rest =>
      rw [quoted, first?_seq_char_cons, first?_closing plain]
      by_cases opened : c = mark
      · cases closed : Shape.closing? mark rest with
        | none => simp [Shape.quoted, opened, closed]
        | some n => simp [Shape.quoted, opened, closed]
      · simp [Shape.quoted, opened]

@[simp] theorem first?_name {c : Char} : name.first? (c :: rest) =
    if Shape.isNameStart c then some (rest.dropWhile Shape.isNameChar) else none := by
  rw [name, first?_seq_char_cons, first?_many_char]

/-- What follows the first character of a name. -/
@[simp] theorem first?_nameTail :
    (many (seq (char (· = '.')) name)).first? (cs.dropWhile Shape.isNameChar) =
      some (cs.drop (Shape.nameTail cs)) := by
  have unroll : ∀ cs, (many (seq (char (· = '.')) name)).first? cs = _ :=
    fun cs => first?_many shrinks_char.seq
  fun_induction Shape.nameTail cs with
  | case1 => rfl
  | case2 c rest isChar ih =>
      rw [List.dropWhile_cons_of_pos isChar, ih]
      simp [Nat.add_comm 1]
  | case3 d rest start other ih =>
      rw [List.dropWhile_cons_of_neg other, unroll, first?_seq_char_cons, first?_name]
      simp [start, ih, ← List.drop_drop]
  | case4 d rest noStart other =>
      rw [List.dropWhile_cons_of_neg other, unroll, first?_seq_char_cons, first?_name]
      simp [noStart]
  | case5 other => rfl
  | case6 c rest other noPoint =>
      rw [List.dropWhile_cons_of_neg other, unroll, first?_seq_char_cons]
      simp [noPoint]

theorem dottedName_reads : dottedName.Reads Shape.dottedName := by
  intro cs
  rw [dottedName, first?_seq_of_isSome fun _ => isSome_first?_many]
  cases cs with
  | nil => rfl
  | cons c rest =>
      rw [first?_name]
      by_cases start : Shape.isNameStart c
      · simp [Shape.dottedName, start, Nat.add_comm 1]
      · simp [Shape.dottedName, start]

theorem mark_reads (marks : List Char) : (char marks.contains).Reads (Shape.mark marks) := by
  intro cs
  cases cs with
  | nil => rfl
  | cons c rest =>
      rw [first?_char_cons]
      by_cases listed : c ∈ marks <;> simp [Shape.mark, listed]

end Pattern

end IdlGen
