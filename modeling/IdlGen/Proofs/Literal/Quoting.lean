import IdlGen.Proofs.Literal.Strings
import IdlGen.Proofs.Token.Reading
import IdlGen.Text.Quoted

/-!
# Quoting and its inverse

A quoted token begins with its mark and goes to the first mark that no backslash takes along.
Quoting a text escapes every character that would end the token or break the line, so it gives one
string token, whatever the text. Decoding the token gives the text back, unless the text has a
control character that only a code can stand for: that code is an escape which decoding does not
know. An unknown escape is also all that can be wrong with a string token of a file.
-/

namespace IdlGen

@[simp] theorem Shape.quoted_mark (mark : Char) (cs : List Char) :
    Shape.quoted mark (mark :: cs) = ((Shape.closing? mark cs).map (· + 1)).getD 0 := by
  simp [Shape.quoted]

namespace Language

variable {lang : Language} {kind : TokenKind} {mark : Char}

/-- The classes of quoted tokens and their marks. -/
def quotes : Language → List (TokenKind × Char)
  | definitions => [(.string, '"'), (.char, '\'')]
  | specs => [(.string, '"')]

/-- A mark begins a quoted token or nothing. -/
theorem first?_of_quote (listed : (kind, mark) ∈ lang.quotes) (cs : List Char) :
    lang.rules.first? (mark :: cs) = (Shape.closing? mark cs).map (.token kind, ·) := by
  cases lang with
  | specs =>
      obtain ⟨rfl, rfl⟩ := Prod.mk.inj (List.mem_singleton.mp listed)
      simp only [LexRules.first?, rules, LexRules.spec, LexRules.layout, List.cons_append,
        List.nil_append, List.findSome?_cons, Shape.quoted_mark]
      cases Shape.closing? '"' cs <;> rfl
  | definitions =>
      simp only [LexRules.first?, rules, LexRules.idl, LexRules.layout, List.cons_append,
        List.nil_append, List.findSome?_cons]
      rcases List.mem_pair.mp listed with same | same
      · obtain ⟨rfl, rfl⟩ := Prod.mk.inj same
        simp only [Shape.quoted_mark]
        cases Shape.closing? '"' cs <;> rfl
      · obtain ⟨rfl, rfl⟩ := Prod.mk.inj same
        simp only [Shape.quoted_mark]
        cases Shape.closing? '\'' cs <;> rfl

end Language

/-- Whether the character can be quoted without its code: it is no control, or one of the five that
have a letter. -/
def Spelling.isQuotable (c : Char) : Bool :=
  0x20 ≤ c.toNat || ['\x08', '\t', '\n', '\x0c', '\r'].contains c

/-- Whether the text can be written in quotes without codes of characters. -/
def Text.isQuotable (text : String) : Bool := text.toList.all Spelling.isQuotable

namespace Spelling

variable {image : String} {mark letter c : Char} {body cs : List Char} {e : SpellingError}

theorem Body.append {front back : List Char} (first : Body mark front) (second : Body mark back) :
    Body mark (front ++ back) := by
  induction first with
  | done => exact second
  | plain plain _ ih => exact .plain plain ih
  | escape proper _ ih => exact .escape proper ih

/-- The mark behind a body is the first that no backslash takes along. -/
theorem Body.closing? (other : '\\' ≠ mark) (inside : Body mark body) :
    Shape.closing? mark (body ++ [mark]) = some (body.length + 1) := by
  induction inside with
  | done => simp [Shape.closing?]
  | plain plain _ ih =>
      rw [List.cons_append, Shape.closing?_plain plain.1 plain.2.2 plain.2.1, ih]
      rfl
  | escape proper _ ih =>
      rw [List.cons_append, List.cons_append, Shape.closing?_escape other proper, ih]
      rfl

/-- A body between two marks is a token. -/
theorem Body.stands {lang : Language} {kind : TokenKind} (listed : (kind, mark) ∈ lang.quotes)
    (inside : Body mark body) : lang.Stands kind (mark :: (body ++ [mark])) := by
  have other : '\\' ≠ mark := by
    have all : ∀ lang : Language, ∀ q ∈ lang.quotes, '\\' ≠ q.2 := by
      rintro (_ | _) <;> decide
    exact all lang _ listed
  refine ⟨List.cons_ne_nil _ _, ?_⟩
  rw [Language.choose?_eq, Language.first?_of_quote listed, inside.closing? other]
  simp

@[simp] theorem decodeBody_plain (plain : c ≠ '\\') :
    decodeBody image (c :: body) = (decodeBody image body).map (c :: ·) := by
  rw [decodeBody.eq_def]
  split <;> simp_all

theorem decodeBody_known (known : unescape? letter = some c) :
    decodeBody image ('\\' :: letter :: body) = (decodeBody image body).map (c :: ·) := by
  rw [decodeBody, known]

theorem decodeBody_unknown (unknown : unescape? letter = none) :
    decodeBody image ('\\' :: letter :: body) = .error (.unsupportedEscape letter image) := by
  rw [decodeBody, unknown]

theorem eq_error_of_map {α β : Type} {answer : Except SpellingError α} {f : α → β}
    (failed : answer.map f = .error e) : answer = .error e := by
  cases answer with
  | error e =>
      cases failed
      rfl
  | ok a => cases failed

/-- Decoding what stands between marks can only fail at the first escape that is not known. -/
theorem Body.decodeBody_eq_error (inside : Body mark body)
    (failed : decodeBody image body = .error e) :
    ∃ front text letter rest, body = front ++ '\\' :: letter :: rest ∧ Spells front text ∧
      letter ∉ escapes.map Prod.fst ∧ e = .unsupportedEscape letter image := by
  induction inside with
  | done => cases failed
  | @plain c body plain _ ih =>
      rw [decodeBody_plain plain.2.1] at failed
      obtain ⟨front, text, letter, rest, rfl, spells, unknown⟩ := ih (eq_error_of_map failed)
      exact ⟨c :: front, c :: text, letter, rest, rfl, .plain plain.2.1 spells, unknown⟩
  | @escape letter body _ _ ih =>
      cases meaning : unescape? letter with
      | none =>
          rw [decodeBody_unknown meaning] at failed
          cases failed
          refine ⟨[], [], letter, body, rfl, .done, fun known => ?_, rfl⟩
          obtain ⟨⟨_, c⟩, listed, rfl⟩ := List.mem_map.mp known
          rw [unescape?_eq_some_iff.mpr listed] at meaning
          cases meaning
      | some c =>
          rw [decodeBody_known meaning] at failed
          obtain ⟨front, text, other, rest, rfl, spells, unknown⟩ := ih (eq_error_of_map failed)
          have known := unescape?_eq_some_iff.mp meaning
          exact ⟨'\\' :: letter :: front, c :: text, other, rest, rfl, .escape known spells,
            unknown⟩

theorem quoteChar_cases (quotable : isQuotable c) :
    (∃ letter, Text.quoteChar c = ['\\', letter] ∧ (letter, c) ∈ escapes) ∨
      Text.quoteChar c = [c] ∧ c ≠ '\\' ∧ c ≠ '"' ∧ c ≠ '\n' := by
  by_cases special : c ∈ ['"', '\\', '\x08', '\t', '\n', '\x0c', '\r']
  · simp only [List.mem_cons, List.not_mem_nil, or_false] at special
    rcases special with rfl | rfl | rfl | rfl | rfl | rfl | rfl <;>
      exact .inl ⟨_, rfl, by decide⟩
  · simp only [List.mem_cons, List.not_mem_nil, or_false, not_or] at special
    have visible : ¬ c.toNat < 0x20 := by
      simp [isQuotable, special] at quotable
      omega
    refine .inr ⟨?_, special.2.1, special.1, by simp [special]⟩
    simp [Text.quoteChar, special, visible]

theorem body_of_plain (plain : ∀ c ∈ body, c ≠ mark ∧ c ≠ '\\' ∧ c ≠ '\n') : Body mark body := by
  induction body with
  | nil => exact .done
  | cons c body ih =>
      have others := ih fun d member => plain d (List.mem_cons_of_mem c member)
      exact .plain (plain c List.mem_cons_self) others

/-- Any other control is quoted by its code. -/
theorem quoteChar_of_control (control : isQuotable c = false) :
    ∃ code, Text.quoteChar c = '\\' :: 'u' :: code ∧ Body '"' code := by
  have coded : ∀ k ∈ List.range 0x20, isQuotable (Char.ofNat k) = false →
      ['\\', 'u'] <+: Text.quoteChar (Char.ofNat k) ∧
      ((Text.quoteChar (Char.ofNat k)).drop 2).all fun d => d ≠ '"' && d ≠ '\\' && d ≠ '\n' := by
    decide +kernel
  have low : c.toNat ∈ List.range 0x20 := by
    obtain ⟨low, _⟩ := Bool.or_eq_false_iff.mp control
    exact List.mem_range.mpr (Nat.not_le.mp (of_decide_eq_false low))
  have here := coded c.toNat low
  rw [Char.ofNat_toNat] at here
  obtain ⟨⟨code, quoted⟩, plain⟩ := here control
  refine ⟨code, quoted.symm, body_of_plain ?_⟩
  simpa [← quoted, and_assoc] using plain

/-- An escape that is known can stand between any marks. -/
theorem body_of_known (known : (letter, c) ∈ escapes) : Body mark ['\\', letter] := by
  have proper : ∀ entry ∈ escapes, entry.1 ≠ '\n' := by decide
  exact .escape (proper _ known) .done

theorem body_quoteChar (c : Char) : Body '"' (Text.quoteChar c) := by
  cases quotable : isQuotable c with
  | true =>
      rcases quoteChar_cases quotable with ⟨letter, quoted, known⟩ | ⟨quoted, plain⟩
      · rw [quoted]
        exact body_of_known known
      · rw [quoted]
        exact .plain ⟨plain.2.1, plain.1, plain.2.2⟩ .done
  | false =>
      obtain ⟨code, quoted, inside⟩ := quoteChar_of_control quotable
      rw [quoted]
      exact .escape (by decide) inside

theorem body_quoteBody (cs : List Char) : Body '"' (Text.quoteBody cs) := by
  induction cs with
  | nil => exact .done
  | cons c cs ih =>
      rw [Text.quoteBody, List.flatMap_cons]
      exact (body_quoteChar c).append ih

/-- Decoding undoes quoting, up to the first control that is quoted by its code. -/
@[simp] theorem decodeBody_quoteBody (image : String) (cs : List Char) :
    decodeBody image (Text.quoteBody cs) =
      if cs.all isQuotable then .ok cs else .error (.unsupportedEscape 'u' image) := by
  induction cs with
  | nil => rfl
  | cons c cs ih =>
      have split : Text.quoteBody (c :: cs) = Text.quoteChar c ++ Text.quoteBody cs :=
        List.flatMap_cons
      rw [split]
      cases quotable : isQuotable c with
      | true =>
          have step : decodeBody image (Text.quoteChar c ++ Text.quoteBody cs) =
              (decodeBody image (Text.quoteBody cs)).map (c :: ·) := by
            rcases quoteChar_cases quotable with ⟨letter, quoted, known⟩ | ⟨quoted, plain, _⟩
            · rw [quoted]
              exact decodeBody_known (unescape?_eq_some_iff.mpr known)
            · rw [quoted]
              exact decodeBody_plain plain
          rw [step, ih, List.all_cons, quotable, Bool.true_and]
          split <;> rfl
      | false =>
          obtain ⟨code, quoted, _⟩ := quoteChar_of_control quotable
          rw [quoted, if_neg (by simp [quotable])]
          exact decodeBody_unknown rfl

@[simp] theorem toList_quote (text : String) :
    (Text.quote text).toList = '"' :: (Text.quoteBody text.toList ++ ['"']) := by
  rw [Text.quote, String.toList_ofList]
  rfl

/-- Writing a text in quotes spells it. -/
theorem spelled_quote {text : String} (quotable : Text.isQuotable text) :
    Spelled (Text.quote text) text := by
  have decoded := decodeBody_quoteBody text text.toList
  rw [← Text.isQuotable, if_pos quotable] at decoded
  exact ⟨_, toList_quote text, decodeBody_eq_ok_iff.mp decoded⟩

/-- A text in quotes is a string token. -/
theorem stands_quote (lang : Language) (text : String) :
    lang.Stands .string (Text.quote text).toList := by
  rw [toList_quote]
  apply (body_quoteBody text.toList).stands
  cases lang <;> decide

/-- Texts in quotes can be read back, if their controls have letters. -/
theorem spans_quote {lang : Language} {text : String} (quotable : Text.isQuotable text) :
    lang.Spans [Text.quote text] fun toks =>
      ∃ t, toks = [t] ∧ t.kind = .string ∧ Spelled t.text text := by
  refine (Language.Spans.single (stands_quote lang text)).mono ?_
  rintro toks ⟨t, only, kind, same⟩
  exact ⟨t, only, kind, same ▸ spelled_quote quotable⟩

theorem decodeString_quote (text : String) :
    decodeString (Text.quote text) =
      if Text.isQuotable text then .ok text
      else .error (.unsupportedEscape 'u' (Text.quote text)) := by
  rw [decodeString, toList_quote, stripMarks_quoted, decodeBody_quoteBody, Text.isQuotable]
  split
  · exact congrArg Except.ok String.ofList_toList
  · rfl

/-- A string token of a text can only have an escape that is not known. -/
theorem decodeString_eq_error_of_token {lang : Language} {file source : String} {ts : TokenList}
    {t : Token} (accepted : tokenizeFile lang.rules file source = .ok ts) (member : t ∈ ts.tokens)
    (string : t.kind = .string) (failed : decodeString t.text = .error e) :
    ∃ front text letter rest, t.text.toList = '"' :: (front ++ '\\' :: letter :: rest) ∧
      Spells front text ∧ letter ∉ escapes.map Prod.fst ∧
      e = .unsupportedEscape letter t.text := by
  have stands := Language.stands_of_tokenizeFile accepted t member
  rw [string] at stands
  obtain ⟨cs, whole, closed⟩ := closing?_of_stands stands
  obtain ⟨body, rfl, inside⟩ := body_of_closing? closed
  rw [decodeString, whole, stripMarks_quoted] at failed
  obtain ⟨front, text, letter, rest, rfl, spells, unknown⟩ :=
    inside.decodeBody_eq_error (eq_error_of_map failed)
  exact ⟨front, text, letter, rest ++ ['"'], by simpa using whole, spells, unknown⟩

/-- Quoting and decoding fit together. A text in quotes is one string token in both languages, and
it is decoded to the text unless a control is quoted by its code. Whatever text a string token is
from, it has no escape that is cut short: decoding fails only at an escape that is not known. -/
theorem quoting_inverted :
    (∀ text : String,
      (∀ (lang : Language) (file : String), tokenizeFile lang.rules file (Text.quote text) =
        .ok ⟨[⟨.string, Text.quote text, .start, none⟩], .behind (Text.quote text).toList⟩) ∧
      decodeString (Text.quote text) =
        if Text.isQuotable text then .ok text
        else .error (.unsupportedEscape 'u' (Text.quote text))) ∧
    ∀ (lang : Language) (file source : String) (ts : TokenList),
      tokenizeFile lang.rules file source = .ok ts → ∀ t ∈ ts.tokens, t.kind = .string →
        ∀ e, decodeString t.text = .error e →
          ∃ front text letter rest, t.text.toList = '"' :: (front ++ '\\' :: letter :: rest) ∧
            Spells front text ∧ letter ∉ escapes.map Prod.fst ∧
            e = .unsupportedEscape letter t.text := by
  constructor
  · intro text
    exact ⟨fun lang file => (stands_quote lang text).tokenizeFile_eq file, decodeString_quote text⟩
  · intro lang file source ts accepted t member string e failed
    exact decodeString_eq_error_of_token accepted member string failed

end Spelling

end IdlGen
