import IdlGen.Proofs.Token.Layout

/-!
# Rules on written tokens

A rule of a grammar gives a value and leaves the rest of the tokens. What it gives for a text that
is written token by token follows from what the tokens of the text look like: texts that are tokens
when they stand alone are read back, with any blanks between them, and the form that their tokens
have is put together from the forms of its parts.
-/

namespace IdlGen

/-- The token is the mark. -/
def Token.Mark (t : Token) (text : String) : Prop := t.kind = .punctuation ∧ t.text = text

@[simp] theorem Token.isMark_iff {t : Token} {text : String} : t.isMark text ↔ t.Mark text := by
  simp [Token.isMark, Token.Mark]

theorem Token.Mark.isText {t : Token} {text : String} (mark : t.Mark text) : t.isText text := by
  simp [Token.isText, mark.1, mark.2]

theorem Token.Mark.not_isText {t : Token} {text other : String} (mark : t.Mark text)
    (differ : text ≠ other) : ¬ t.isText other := by
  simp [Token.isText, mark.2, differ]

section Rules

variable {t : Token} {toks rest : List Token} {α : Type}

theorem Reader.expect_mark {r : Reader} {text : String} (mark : t.Mark text) :
    r.expect text (t :: rest) = .ok (.next t) := if_pos mark.isText

/-- The rule gives a value and leaves the rest of the tokens. -/
def Gives (answer : Except SourceError (Parsed toks α)) (value : α) (rest : List Token) : Prop :=
  ∃ out, answer = .ok out ∧ out.value = value ∧ out.rest = rest

@[simp] theorem skipIf?_pos {p : Token → Bool} (accepted : p t) :
    skipIf? p (t :: rest) = some ⟨rest, Nat.lt_succ_self _⟩ := if_pos accepted

@[simp] theorem skipIf?_neg {p : Token → Bool} (refused : ∀ t ∈ toks.head?, ¬ p t) :
    skipIf? p toks = none := by
  cases toks with
  | nil => rfl
  | cons t rest => exact if_neg (refused t rfl)

theorem exists_of_skipIf? {p : Token → Bool} {later : Later toks}
    (skipped : skipIf? p toks = some later) : ∃ t, toks = t :: later.1 ∧ p t := by
  cases toks with
  | nil => cases skipped
  | cons t rest =>
      rw [skipIf?] at skipped
      split at skipped
      · next accepted =>
          cases skipped
          exact ⟨t, rfl, accepted⟩
      · cases skipped

@[simp] theorem skipOptional_pos {p : Token → Bool} (accepted : p t) :
    (skipOptional p (t :: rest)).1 = rest := by
  rw [skipOptional, skipIf?_pos accepted]
  rfl

@[simp] theorem skipOptional_neg {p : Token → Bool} (refused : ∀ t ∈ toks.head?, ¬ p t) :
    (skipOptional p toks).1 = toks := by
  rw [skipOptional, skipIf?_neg refused]
  rfl

end Rules

/-- The lexeme of a token. -/
def Lexeme.ofReading (e : TokenKind × String) : Lexeme := ⟨.token e.1, e.2.toList⟩

@[simp] theorem Lexeme.reading?_ofReading : Lexeme.reading? ∘ Lexeme.ofReading = some := by
  funext e
  simp [Lexeme.reading?, Lexeme.ofReading]

namespace Language

variable {lang : Language}

/-- The first character tells that there is no layout. -/
theorem choose?_layout_cons {c : Char} {rest : List Char} (visible : ¬ Text.isBlank c)
    (slash : c ≠ '/') (hash : c ≠ '#') : Alternative.choose? layout (c :: rest) = none := by
  apply choose?_layout_eq_none
  · rintro x ⟨⟩
    exact visible
  · simp [List.cons_prefix_cons, slash.symm]
  · simp [List.cons_prefix_cons, slash.symm]
  · simp [List.cons_prefix_cons, hash.symm]

theorem Stands.cut {kind : TokenKind} {piece : List Char} (stands : lang.Stands kind piece) :
    lang.Cut piece [⟨.token kind, piece⟩] [] := by
  obtain ⟨nonempty, chosen⟩ := stands
  rw [← List.append_nil piece] at chosen
  have next := Cut.next (l := ⟨.token kind, piece⟩) nonempty chosen (.stop [])
  rwa [List.append_nil] at next

/-- A text that is a token has no other tokens. -/
theorem Stands.tokenizeFile_eq {kind : TokenKind} {text : String}
    (stands : lang.Stands kind text.toList) (file : String) :
    tokenizeFile lang.rules file text =
      .ok ⟨[⟨kind, text, .start, none⟩], .behind text.toList⟩ := by
  rw [Language.tokenizeFile_eq, stands.cut.scan_eq, if_pos rfl]
  simp [Lexeme.tokens, Lexeme.token?, Lexeme.spell, Position.behind, Docs.behind, Position.start]

/-- A text that is cut into tokens only has these tokens. -/
theorem tokenizeFile_cut {entries : List (TokenKind × String)} {text : String}
    (cut : lang.Cut text.toList (entries.map Lexeme.ofReading) []) (file : String) :
    ∃ ts, tokenizeFile lang.rules file text = .ok ts ∧ ts.tokens.map Token.reading = entries := by
  rw [Language.tokenizeFile_eq, cut.scan_eq, if_pos rfl]
  refine ⟨_, rfl, ?_⟩
  rw [Lexeme.map_reading_tokens, List.filterMap_map, Lexeme.reading?_ofReading,
    List.filterMap_some]

/-- The texts are tokens, and tokens with these texts have the form. -/
def Spans (lang : Language) (ws : List String) (form : List Token → Prop) : Prop :=
  ∃ entries : List (TokenKind × String), entries.map Prod.snd = ws ∧
    (∀ e ∈ entries, lang.Stands e.1 e.2.toList) ∧
    ∀ toks : List Token, toks.map Token.reading = entries → form toks

/-- The marks of a language. -/
def marks : Language → List String
  | definitions => ["\x7b", "\x7d", "(", ")", "<", ">", "[", "]", ",", ";", ":", "=", "*"]
  | specs => ["\x7b", "\x7d", "[", "]", ",", ":"]

theorem stands_mark {text : String} (listed : text ∈ lang.marks) :
    lang.Stands .punctuation text.toList := by
  have all : ∀ text ∈ lang.marks, lang.Stands .punctuation text.toList := by
    unfold Language.Stands
    cases lang <;> decide +kernel
  exact all text listed

/-- Only marks read like a mark. -/
theorem Stands.not_mark {kind : TokenKind} {text : String} (stands : lang.Stands kind text.toList)
    (other : kind ≠ .punctuation) : text ∉ lang.marks := by
  intro listed
  have same := stands.2.symm.trans (stands_mark listed).2
  cases same
  exact other rfl

namespace Spans

variable {ws ws' : List String} {form form' : List Token → Prop} {kind : TokenKind} {text : String}

theorem nothing (holds : form []) : lang.Spans [] form := by
  refine ⟨[], rfl, by simp, fun toks readings => ?_⟩
  rw [List.map_eq_nil_iff.mp readings]
  exact holds

theorem single (stands : lang.Stands kind text.toList) :
    lang.Spans [text] fun toks => ∃ t, toks = [t] ∧ t.kind = kind ∧ t.text = text := by
  refine ⟨[(kind, text)], rfl, by simpa using stands, fun toks readings => ?_⟩
  obtain ⟨t, rfl, reading⟩ := List.map_eq_singleton_iff.mp readings
  obtain ⟨rfl, rfl⟩ := Prod.mk.inj reading
  exact ⟨t, rfl, rfl, rfl⟩

theorem append (first : lang.Spans ws form) (second : lang.Spans ws' form') :
    lang.Spans (ws ++ ws') fun toks =>
      ∃ front back, toks = front ++ back ∧ form front ∧ form' back := by
  obtain ⟨entries, rfl, stand, forms⟩ := first
  obtain ⟨entries', rfl, stand', forms'⟩ := second
  refine ⟨entries ++ entries', List.map_append, ?_, fun toks readings => ?_⟩
  · intro e listed
    rcases List.mem_append.mp listed with here | there
    · exact stand e here
    · exact stand' e there
  · obtain ⟨front, back, rfl, readFront, readBack⟩ := List.map_eq_append_iff.mp readings
    exact ⟨front, back, rfl, forms front readFront, forms' back readBack⟩

theorem mono (spans : lang.Spans ws form) (weaker : ∀ toks, form toks → form' toks) :
    lang.Spans ws form' := by
  obtain ⟨entries, texts, stand, forms⟩ := spans
  exact ⟨entries, texts, stand, fun toks readings => weaker toks (forms toks readings)⟩

/-- Each of the tokens would be that token if it stood alone. -/
theorem stands (spans : lang.Spans ws form) :
    lang.Spans ws fun toks => form toks ∧ ∀ t ∈ toks, lang.Stands t.kind t.text.toList := by
  obtain ⟨entries, texts, stand, forms⟩ := spans
  refine ⟨entries, texts, stand, fun toks readings => ⟨forms toks readings, fun t member => ?_⟩⟩
  exact stand t.reading (readings ▸ List.mem_map_of_mem member)

theorem mark (listed : text ∈ lang.marks) :
    lang.Spans [text] fun toks => ∃ t, toks = [t] ∧ t.Mark text :=
  single (stands_mark listed)

/-- Texts between two marks. -/
theorem enclosed {before behind : String} (opens : before ∈ lang.marks)
    (closes : behind ∈ lang.marks) (inside : lang.Spans ws form) :
    lang.Spans (before :: (ws ++ [behind])) fun toks => ∃ opening front closing,
      toks = opening :: (front ++ [closing]) ∧ opening.Mark before ∧ form front ∧
        closing.Mark behind := by
  refine ((mark opens).append (inside.append (mark closes))).mono ?_
  rintro toks ⟨_, _, rfl, ⟨opening, rfl, isOpening⟩, front, _, rfl, holds, closing, rfl, isClosing⟩
  exact ⟨opening, front, closing, rfl, isOpening, holds, isClosing⟩

theorem word (listed : text ∈ ["null", "true", "false"]) :
    lang.Spans [text] fun toks => ∃ t, toks = [t] ∧ t.kind = .word ∧ t.text = text := by
  have stands : ∀ text ∈ ["null", "true", "false"], lang.Stands .word text.toList := by
    unfold Language.Stands
    cases lang <;> decide +kernel
  exact single (stands text listed)

/-- A text of the tokens, with any blanks between them, has tokens of the form. -/
theorem tokenizeFile {text : String} (spans : lang.Spans ws form)
    (spaced : Spaced (ws.map String.toList) text.toList) (file : String) :
    ∃ ts, tokenizeFile lang.rules file text = .ok ts ∧ form ts.tokens := by
  obtain ⟨entries, rfl, stand, forms⟩ := spans
  rw [List.map_map] at spaced
  obtain ⟨ts, tokenized, readings⟩ := tokenizeFile_spaced spaced stand file
  exact ⟨ts, tokenized, forms ts.tokens readings⟩

end Spans

end Language

end IdlGen
