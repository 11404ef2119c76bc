import IdlGen.Idl.Literal
import IdlGen.Proofs.Literal.Scalars

/-!
# Literals as text and back

A literal that refers to nothing is written as tokens: words, numbers, characters and strings for
its scalars, brackets around lists and braces around maps, a comma, a semicolon or nothing after
each item. With blanks between the tokens, reading the text gives the literal back, and no token is
left. A separator never stands where an item or a closing mark can, so it does not matter which of
them are there.
-/

namespace IdlGen

namespace Literal

mutual

/-- Whether the literal refers to nothing, its numbers have 64 bits, its strings are quotable, and
no other scalars are inside. -/
def isWritable : Literal → Bool
  | null => true
  | bool _ => true
  | int n => IntWidth.w64.holds n
  | double _ => false
  | char _ => true
  | str text => Text.isQuotable text
  | binary _ => false
  | list items => areWritable items
  | map entries => areWritablePairs entries
  | enum _ => false
  | const _ => false

def areWritable : List Literal → Bool
  | [] => true
  | lit :: rest => isWritable lit && areWritable rest

def areWritablePairs : List (Literal × Literal) → Bool
  | [] => true
  | (key, value) :: rest => isWritable key && isWritable value && areWritablePairs rest

end

@[simp] theorem isWritable_list_iff {items : List Literal} :
    (list items).isWritable ↔ ∀ item ∈ items, item.isWritable := by
  rw [isWritable]
  induction items with
  | nil => simp [areWritable]
  | cons item items ih => simp [areWritable, ih]

@[simp] theorem isWritable_map_iff {entries : List (Literal × Literal)} :
    (map entries).isWritable ↔ ∀ e ∈ entries, e.1.isWritable ∧ e.2.isWritable := by
  rw [isWritable]
  induction entries with
  | nil => simp [areWritablePairs]
  | cons e entries ih => simp [areWritablePairs, ih]

end Literal

namespace Idl

/-- What is written at one place. -/
inductive Phrase where
  | literal (lit : Literal)
  | items (items : List Literal)
  | entries (entries : List (Literal × Literal))

/-- What can stand after an item. -/
def separators : List (List String) := [[], [","], [";"]]

/-- The texts of the tokens of a phrase. -/
inductive Written : Phrase → List String → Prop
  | null : Written (.literal .null) ["null"]
  | yes : Written (.literal (.bool true)) ["true"]
  | no : Written (.literal (.bool false)) ["false"]
  | int (n : Int) : Written (.literal (.int n)) [toString n]
  | char (c : Char) : Written (.literal (.char c)) [Spelling.charImage c]
  | str (text : String) : Written (.literal (.str text)) [Text.quote text]
  | list {items : List Literal} {ws : List String} (inside : Written (.items items) ws) :
      Written (.literal (.list items)) ("[" :: (ws ++ ["]"]))
  | map {entries : List (Literal × Literal)} {ws : List String}
      (inside : Written (.entries entries) ws) :
      Written (.literal (.map entries)) ("\x7b" :: (ws ++ ["\x7d"]))
  | noItem : Written (.items []) []
  | item {item : Literal} {items : List Literal} {text separator ws : List String}
      (first : Written (.literal item) text) (ends : separator ∈ separators)
      (more : Written (.items items) ws) :
      Written (.items (item :: items)) (text ++ (separator ++ ws))
  | noEntry : Written (.entries []) []
  | entry {key value : Literal} {entries : List (Literal × Literal)}
      {keyText valueText separator ws : List String} (first : Written (.literal key) keyText)
      (second : Written (.literal value) valueText) (ends : separator ∈ separators)
      (more : Written (.entries entries) ws) :
      Written (.entries ((key, value) :: entries))
        (keyText ++ ":" :: (valueText ++ (separator ++ ws)))

theorem exists_written_items {items : List Literal}
    (each : ∀ item ∈ items, ∃ ws, Written (.literal item) ws) :
    ∃ ws, Written (.items items) ws := by
  induction items with
  | nil => exact ⟨[], .noItem⟩
  | cons item items ih =>
      obtain ⟨text, first⟩ := each item List.mem_cons_self
      obtain ⟨ws, more⟩ := ih fun other listed => each other (List.mem_cons_of_mem _ listed)
      exact ⟨_, .item first List.mem_cons_self more⟩

theorem exists_written_entries {entries : List (Literal × Literal)}
    (each : ∀ e ∈ entries, (∃ ws, Written (.literal e.1) ws) ∧ ∃ ws, Written (.literal e.2) ws) :
    ∃ ws, Written (.entries entries) ws := by
  induction entries with
  | nil => exact ⟨[], .noEntry⟩
  | cons e entries ih =>
      obtain ⟨⟨keyText, first⟩, valueText, second⟩ := each e List.mem_cons_self
      obtain ⟨ws, more⟩ := ih fun other listed => each other (List.mem_cons_of_mem _ listed)
      exact ⟨_, .entry first second List.mem_cons_self more⟩

/-- Every literal of the kind can be written. -/
theorem exists_written {lit : Literal} (writable : lit.isWritable) :
    ∃ ws, Written (.literal lit) ws := by
  induction size : sizeOf lit using Nat.strongRecOn generalizing lit with
  | ind n ih =>
      cases lit with
      | null => exact ⟨_, .null⟩
      | bool b => cases b with
        | true => exact ⟨_, .yes⟩
        | false => exact ⟨_, .no⟩
      | int n => exact ⟨_, .int n⟩
      | char c => exact ⟨_, .char c⟩
      | str text => exact ⟨_, .str text⟩
      | double _ | binary _ | enum _ | const _ => cases writable
      | list items =>
          rw [Literal.list.sizeOf_spec] at size
          have each : ∀ item ∈ items, ∃ ws, Written (.literal item) ws := by
            intro item listed
            have smaller := List.sizeOf_lt_of_mem listed
            exact ih _ (by omega) (Literal.isWritable_list_iff.mp writable item listed) rfl
          obtain ⟨ws, inside⟩ := exists_written_items each
          exact ⟨_, .list inside⟩
      | map entries =>
          rw [Literal.map.sizeOf_spec] at size
          have each : ∀ e ∈ entries,
              (∃ ws, Written (.literal e.1) ws) ∧ ∃ ws, Written (.literal e.2) ws := by
            rintro ⟨key, value⟩ listed
            have smaller := List.sizeOf_lt_of_mem listed
            rw [Prod.mk.sizeOf_spec] at smaller
            obtain ⟨keyWritable, valueWritable⟩ := Literal.isWritable_map_iff.mp writable _ listed
            exact ⟨ih (sizeOf key) (by omega) keyWritable rfl,
              ih (sizeOf value) (by omega) valueWritable rfl⟩
          obtain ⟨ws, inside⟩ := exists_written_entries each
          exact ⟨_, .map inside⟩

variable {r : Reader} {lookup : String → Option Symbol} {t : Token} {text : String}
variable {toks rest next left : List Token} {lit key value : Literal} {items : List Literal}
variable {entries : List (Literal × Literal)}

theorem literal_of_scalar (scalar : t.kind ≠ .punctuation)
    (read : scalarLiteral r lookup t = .ok lit) :
    Gives (literal r lookup (t :: rest)) lit rest := by
  have noMark : ∀ text, t.isMark text = false := fun text => by simp [Token.isMark, scalar]
  rw [literal]
  simp only [noMark, Bool.false_eq_true, if_false, read]
  exact ⟨_, rfl, rfl, rfl⟩

theorem literal_of_list (opens : t.Mark "[")
    (inside : Gives (literalItems r lookup rest) items left) :
    Gives (literal r lookup (t :: rest)) (.list items) left := by
  obtain ⟨⟨_, _, _⟩, read, rfl, rfl⟩ := inside
  rw [literal]
  simp only [Token.isMark_iff.mpr opens, if_true, read]
  exact ⟨_, rfl, rfl, rfl⟩

theorem literal_of_map (opens : t.Mark "\x7b")
    (inside : Gives (literalEntries r lookup rest) entries left) :
    Gives (literal r lookup (t :: rest)) (.map entries) left := by
  obtain ⟨⟨_, _, _⟩, read, rfl, rfl⟩ := inside
  have noList : t.isMark "[" = false := by simp [Token.isMark, opens.2]
  rw [literal]
  simp only [noList, Bool.false_eq_true, if_false, Token.isMark_iff.mpr opens, if_true, read]
  exact ⟨_, rfl, rfl, rfl⟩

theorem literalItems_end (closes : t.Mark "]") :
    Gives (literalItems r lookup (t :: rest)) [] rest := by
  rw [literalItems, skip?, skipIf?_pos closes.isText]
  exact ⟨_, rfl, rfl, rfl⟩

theorem literalItems_more (goesOn : ∀ t ∈ toks.head?, ¬ t.isText "]")
    (first : Gives (literal r lookup toks) lit next)
    (more : Gives (literalItems r lookup (skipSeparator next).1) items left) :
    Gives (literalItems r lookup toks) (lit :: items) left := by
  obtain ⟨⟨_, _, _⟩, read, rfl, rfl⟩ := first
  obtain ⟨⟨_, _, _⟩, readMore, rfl, rfl⟩ := more
  rw [literalItems, skip?, skipIf?_neg goesOn]
  change Gives (literal r lookup toks >>= _) _ _
  rw [read]
  change Gives (literalItems r lookup (skipSeparator _).1 >>= _) _ _
  rw [readMore]
  exact ⟨_, rfl, rfl, rfl⟩

theorem literalEntry_gives {colon : Token}
    (first : Gives (literal r lookup toks) key (colon :: rest))
    (follows : colon.Mark ":") (second : Gives (literal r lookup rest) value left) :
    Gives (literalEntry r lookup toks) (key, value) left := by
  obtain ⟨⟨_, _, _⟩, read, rfl, rfl⟩ := first
  obtain ⟨⟨_, _, _⟩, readToo, rfl, rfl⟩ := second
  rw [literalEntry, read]
  change Gives (r.expect ":" (colon :: rest) >>= _) _ _
  rw [Reader.expect_mark follows]
  change Gives (literal r lookup rest >>= _) _ _
  rw [readToo]
  exact ⟨_, rfl, rfl, rfl⟩

theorem literalEntries_end (closes : t.Mark "\x7d") :
    Gives (literalEntries r lookup (t :: rest)) [] rest := by
  rw [literalEntries, skip?, skipIf?_pos closes.isText]
  exact ⟨_, rfl, rfl, rfl⟩

theorem literalEntries_more (goesOn : ∀ t ∈ toks.head?, ¬ t.isText "\x7d")
    (first : Gives (literalEntry r lookup toks) (key, value) next)
    (more : Gives (literalEntries r lookup (skipSeparator next).1) entries left) :
    Gives (literalEntries r lookup toks) ((key, value) :: entries) left := by
  obtain ⟨⟨_, _, _⟩, read, same, rfl⟩ := first
  obtain ⟨⟨_, _, _⟩, readMore, rfl, rfl⟩ := more
  cases same
  rw [literalEntries, skip?, skipIf?_neg goesOn]
  change Gives (literalEntry r lookup toks >>= _) _ _
  rw [read]
  change Gives (literalEntries r lookup (skipSeparator _).1 >>= _) _ _
  rw [readMore]
  exact ⟨_, rfl, rfl, rfl⟩

/-- The token neither separates items nor ends them. -/
def Begins (t : Token) : Prop := ∀ text ∈ [",", ";", "]", "\x7d"], ¬ t.isText text

theorem begins_of_scalar (stands : Language.definitions.Stands t.kind t.text.toList)
    (scalar : t.kind ≠ .punctuation) : Begins t := by
  have marks : ∀ text ∈ [",", ";", "]", "\x7d"], text ∈ Language.definitions.marks := by decide
  intro text listed isText
  have same : t.text = text := by simpa [Token.isText] using (Bool.and_eq_true_iff.mp isText).2
  exact stands.not_mark scalar (same ▸ marks text listed)

theorem begins_of_mark (mark : t.Mark text) (opens : text ∈ ["[", "\x7b"]) :
    ∀ rest, ∀ u ∈ ((t :: toks) ++ rest).head?, Begins u := by
  have differ : ∀ text ∈ ["[", "\x7b"], text ∉ [",", ";", "]", "\x7d"] := by decide
  rintro rest u ⟨⟩ other listed
  apply mark.not_isText
  rintro rfl
  exact differ text opens listed

/-- The tokens are read as the phrase, whatever stands behind it. -/
def Phrase.Reads (toks : List Token) : Phrase → Prop
  | .literal lit => (∀ rest, ∀ t ∈ (toks ++ rest).head?, Begins t) ∧
      ∀ r lookup rest, Gives (Idl.literal r lookup (toks ++ rest)) lit rest
  | .items items => (∀ t ∈ toks.head?, Begins t) ∧ ∀ r lookup closing rest, closing.Mark "]" →
      Gives (literalItems r lookup (toks ++ closing :: rest)) items rest
  | .entries entries => (∀ t ∈ toks.head?, Begins t) ∧
      ∀ r lookup closing rest, closing.Mark "\x7d" →
        Gives (literalEntries r lookup (toks ++ closing :: rest)) entries rest

theorem spans_separator {ws : List String} (ends : ws ∈ separators) :
    Language.definitions.Spans ws fun toks => ∀ rest,
      (∀ t ∈ rest.head?, ¬ t.isText "," ∧ ¬ t.isText ";") →
        (skipSeparator (toks ++ rest)).1 = rest := by
  have marked : ∀ text ∈ [",", ";"], Language.definitions.Spans [text] fun toks => ∀ rest,
      (∀ t ∈ rest.head?, ¬ t.isText "," ∧ ¬ t.isText ";") →
        (skipSeparator (toks ++ rest)).1 = rest := by
    intro text listed
    have known : text ∈ Language.definitions.marks := by
      rcases List.mem_pair.mp listed with rfl | rfl <;> decide
    refine (Language.Spans.mark known).mono ?_
    rintro toks ⟨t, rfl, mark⟩ rest _
    apply skipOptional_pos
    rcases List.mem_pair.mp listed with rfl | rfl <;> simp [mark.isText]
  simp only [separators, List.mem_cons, List.not_mem_nil, or_false] at ends
  rcases ends with rfl | rfl | rfl
  · refine .nothing fun rest other => skipOptional_neg fun t first => ?_
    simp [other t first]
  · exact marked "," (by decide)
  · exact marked ";" (by decide)

/-- A scalar is read from its token. -/
theorem spans_scalar (spans : Language.definitions.Spans [text] fun toks => ∃ t, toks = [t] ∧
      t.kind ≠ .punctuation ∧ ∀ r lookup, scalarLiteral r lookup t = .ok lit) :
    Language.definitions.Spans [text] fun toks => (Phrase.literal lit).Reads toks := by
  refine spans.stands.mono ?_
  rintro toks ⟨⟨t, rfl, scalar, read⟩, stands⟩
  refine ⟨fun rest => ?_, fun r lookup rest => literal_of_scalar scalar (read r lookup)⟩
  rintro u ⟨⟩
  exact begins_of_scalar (stands t List.mem_cons_self) scalar

theorem spans_word (listed : text ∈ ["null", "true", "false"])
    (means : ∀ r lookup t, t.text = text → wordLiteral r lookup t = .ok lit) :
    Language.definitions.Spans [text] fun toks => (Phrase.literal lit).Reads toks := by
  apply spans_scalar
  refine (Language.Spans.word listed).mono ?_
  rintro toks ⟨t, rfl, word, same⟩
  refine ⟨t, rfl, by simp [word], fun r lookup => ?_⟩
  rw [scalarLiteral, word]
  exact means r lookup t same

/-- A phrase all of whose literals can be written. -/
def Phrase.Proper : Phrase → Prop
  | .literal lit => lit.isWritable
  | .items items => ∀ item ∈ items, item.isWritable
  | .entries entries => ∀ e ∈ entries, e.1.isWritable ∧ e.2.isWritable

theorem head_append {good : Token → Prop} {front : List Token} (inside : ∀ t ∈ front.head?, good t)
    (behind : good t) : ∀ u ∈ (front ++ t :: rest).head?, good u := by
  cases front with
  | nil =>
      rintro u ⟨⟩
      exact behind
  | cons u front => exact inside

/-- Behind a separator there is no other. -/
theorem not_separator {back : List Token} (begins : ∀ t ∈ back.head?, Begins t)
    (closes : t.Mark text) (closing : text ∈ ["]", "\x7d"]) :
    ∀ u ∈ (back ++ t :: rest).head?, ¬ u.isText "," ∧ ¬ u.isText ";" := by
  have differ : ∀ text ∈ ["]", "\x7d"], text ≠ "," ∧ text ≠ ";" := by decide
  refine head_append (fun u first => ⟨begins u first _ (by simp), begins u first _ (by simp)⟩) ?_
  exact ⟨closes.not_isText (differ text closing).1,
    closes.not_isText (differ text closing).2⟩

/-- What is written is read. -/
theorem Written.spans {phrase : Phrase} {ws : List String} (written : Written phrase ws)
    (proper : phrase.Proper) : Language.definitions.Spans ws fun toks => phrase.Reads toks := by
  induction written with
  | null => exact spans_word (by decide) fun r lookup t same => by simp [wordLiteral, same]
  | yes => exact spans_word (by decide) fun r lookup t same => by simp [wordLiteral, same]
  | no => exact spans_word (by decide) fun r lookup t same => by simp [wordLiteral, same]
  | int n =>
      refine spans_scalar ((Spelling.spans_int proper).mono ?_)
      rintro toks ⟨t, rfl, kind, decoded⟩
      refine ⟨t, rfl, by simp [kind], fun r lookup => ?_⟩
      rw [scalarLiteral, kind, decoded]
      rfl
  | char c =>
      refine spans_scalar ((Spelling.spans_char c).mono ?_)
      rintro toks ⟨t, rfl, kind, decoded⟩
      refine ⟨t, rfl, by simp [kind], fun r lookup => ?_⟩
      rw [scalarLiteral, kind, decoded]
      rfl
  | str text =>
      refine spans_scalar ((Spelling.spans_quote proper).mono ?_)
      rintro toks ⟨t, rfl, kind, spelled⟩
      refine ⟨t, rfl, by simp [kind], fun r lookup => ?_⟩
      rw [scalarLiteral, kind, spelled.decode]
      rfl
  | list inside ih =>
      have items := ih (Literal.isWritable_list_iff.mp proper)
      refine (Language.Spans.enclosed (by decide) (by decide) items).mono ?_
      rintro toks ⟨opening, front, closing, rfl, opens, ⟨_, read⟩, closes⟩
      refine ⟨begins_of_mark opens (by decide), fun r lookup rest => ?_⟩
      rw [List.cons_append, List.append_assoc, List.singleton_append]
      exact literal_of_list opens (read r lookup closing rest closes)
  | map inside ih =>
      have entries := ih (Literal.isWritable_map_iff.mp proper)
      refine (Language.Spans.enclosed (by decide) (by decide) entries).mono ?_
      rintro toks ⟨opening, front, closing, rfl, opens, ⟨_, read⟩, closes⟩
      refine ⟨begins_of_mark opens (by decide), fun r lookup rest => ?_⟩
      rw [List.cons_append, List.append_assoc, List.singleton_append]
      exact literal_of_map opens (read r lookup closing rest closes)
  | noItem => exact .nothing ⟨by simp, fun r lookup t rest => literalItems_end⟩
  | item first ends more ihFirst ihMore =>
      have others := ihMore fun x listed => proper x (List.mem_cons_of_mem _ listed)
      have pieces := (ihFirst (proper _ List.mem_cons_self)).append
        ((spans_separator ends).append others)
      refine pieces.mono ?_
      rintro toks ⟨front, _, rfl, ⟨begins, read⟩, separator, back, rfl, skip, beginsMore, readMore⟩
      refine ⟨begins _, fun r lookup closing rest closes => ?_⟩
      rw [List.append_assoc, List.append_assoc]
      apply literalItems_more (fun t first => begins _ t first _ (by simp)) (read r lookup _)
      -- Where there is no separator, neither the next item nor the bracket is taken for one.
      rw [skip _ (not_separator beginsMore closes (by decide))]
      exact readMore r lookup closing rest closes
  | noEntry => exact .nothing ⟨by simp, fun r lookup t rest => literalEntries_end⟩
  | entry first second ends more ihFirst ihSecond ihMore =>
      obtain ⟨key, value⟩ := proper _ List.mem_cons_self
      have others := ihMore fun e listed => proper e (List.mem_cons_of_mem _ listed)
      have colon : Language.definitions.Spans [":"] fun toks => ∃ t, toks = [t] ∧ t.Mark ":" :=
        .mark (by decide)
      have pieces := (ihFirst key).append (colon.append ((ihSecond value).append
        ((spans_separator ends).append others)))
      refine pieces.mono ?_
      rintro toks ⟨front, _, rfl, ⟨begins, readKey⟩, _, _, rfl, ⟨t, rfl, follows⟩, middle, _, rfl,
        ⟨_, readValue⟩, separator, back, rfl, skip, beginsMore, readMore⟩
      refine ⟨begins _, fun r lookup closing rest closes => ?_⟩
      have entry := literalEntry_gives (readKey r lookup _) follows
        (readValue r lookup (separator ++ (back ++ closing :: rest)))
      rw [List.append_assoc, List.append_assoc, List.append_assoc, List.append_assoc,
        List.singleton_append]
      apply literalEntries_more (fun t first => begins _ t first _ (by simp)) entry
      rw [skip _ (not_separator beginsMore closes (by decide))]
      exact readMore r lookup closing rest closes

/-- A literal is read back from its text. A literal that refers to nothing can be written, and in
whatever way it is written, with a comma, a semicolon or nothing after each item and with any blanks
between the tokens, reading the tokens of the text gives the literal and takes all of them, whatever
other tokens stand behind. -/
theorem literal_written {lit : Literal} (writable : lit.isWritable) :
    (∃ ws, Written (.literal lit) ws) ∧
    ∀ ws, Written (.literal lit) ws →
      ∀ file text, Language.Spaced (ws.map String.toList) text.toList →
        ∃ ts, tokenizeFile .idl file text = .ok ts ∧ ∀ r lookup rest,
          Gives (literal r lookup (ts.tokens ++ rest)) lit rest := by
  refine ⟨exists_written writable, fun ws written file text spaced => ?_⟩
  obtain ⟨ts, tokenized, _, read⟩ := (written.spans writable).tokenizeFile spaced file
  exact ⟨ts, tokenized, read⟩

/-- The least number of 64 bits, signed numbers with nothing between them, and characters and
strings that look like marks. -/
theorem literal_written_side_by_side :
    (Literal.list [.int (-9223372036854775808), .int 0, .int (-1), .char ',', .char '\'',
      .map [(.str "]", .list []), (.null, .char '\n')]]).isWritable ∧
    ∃ ts,
      tokenizeFile .idl "t"
        "[ -9223372036854775808 0 -1 , ',' ; '\\'' \x7b \"]\" : [ ] null : '\\n' ; \x7d ]" =
          .ok ts ∧
      ∀ r lookup rest, Gives (literal r lookup (ts.tokens ++ rest))
        (.list [.int (-9223372036854775808), .int 0, .int (-1), .char ',', .char '\'',
          .map [(.str "]", .list []), (.null, .char '\n')]]) rest := by
  have none : [] ∈ separators := by decide
  have comma : [","] ∈ separators := by decide
  have semicolon : [";"] ∈ separators := by decide
  have entries : Written (.entries [(.str "]", .list []), (.null, .char '\n')]) _ :=
    .entry (.str "]") (.list .noItem) none (.entry .null (.char '\n') semicolon .noEntry)
  have written := Written.list (.item (.int (-9223372036854775808)) none (.item (.int 0) none
    (.item (.int (-1)) comma (.item (.char ',') semicolon (.item (.char '\'') none
      (.item (.map entries) none .noItem))))))
  have writable : (Literal.list [.int (-9223372036854775808), .int 0, .int (-1), .char ',',
      .char '\'', .map [(.str "]", .list []), (.null, .char '\n')]]).isWritable := by
    decide +kernel
  refine ⟨writable, (literal_written writable).2 _ written "t" _ ?_⟩
  convert Language.spaced_intercalate _ using 1
  decide +kernel

end Idl

end IdlGen
