import IdlGen.Idl.Declaration
import IdlGen.Proofs.Model.Likeness

/-!
# Rules that read alike

The rules of the grammar that do not touch the set of models see it only through what a name stands
for. Where names stand for symbols that are alike, such a rule reads the same tokens on both sides
and gives results that are alike, or it refuses both texts in the same way.

What is left after a rule is always a part of the tokens at their end, so a fact about all tokens of
a text holds wherever a rule starts.
-/

namespace IdlGen

variable {α β : Type} {toks : List Token}

/-- Both have read the same tokens, and their results are related. -/
structure Parsed.Related (S : α → β → Prop) (p : Parsed toks α) (q : Parsed toks β) : Prop where
  rest : p.rest = q.rest
  suffix : p.rest <:+ toks
  value : S p.value q.value

@[inherit_doc Parsed.Related]
structure Scanned.Related (S : α → β → Prop) (p : Scanned toks α) (q : Scanned toks β) : Prop where
  rest : p.rest = q.rest
  suffix : p.rest <:+ toks
  value : S p.value q.value

namespace Reader

variable {r : Reader}

theorem take_cons {p : Token → Bool} {what : Expected} {q : Parsed toks Token}
    (h : r.take p what toks = .ok q) : toks = q.value :: q.rest := by
  cases toks with
  | nil => cases h
  | cons t rest =>
      simp only [take] at h
      split at h <;> cases h
      rfl

theorem take_suffix {p : Token → Bool} {what : Expected} {q : Parsed toks Token}
    (h : r.take p what toks = .ok q) : q.rest <:+ toks :=
  ⟨[q.value], (take_cons h).symm⟩

theorem blame_agree {S : α → β → Prop} {t : Token} {x : Except ModelError α}
    {y : Except ModelError β} (agree : Agree S x y) : Agree S (r.blame t x) (r.blame t y) := by
  cases agree with
  | ok related => exact .ok related
  | error e => exact .error _

end Reader

theorem skipIf?_suffix {p : Token → Bool} {later : Later toks} (h : skipIf? p toks = some later) :
    later.1 <:+ toks := by
  cases toks with
  | nil => cases h
  | cons t rest =>
      simp only [skipIf?] at h
      split at h <;> cases h
      exact List.suffix_cons t rest

theorem skipOptional_suffix (p : Token → Bool) (toks : List Token) :
    (skipOptional p toks).1 <:+ toks := by
  unfold skipOptional
  split
  · rename_i skipped
    exact skipIf?_suffix skipped
  · exact List.suffix_rfl

namespace Idl

variable {r : Reader} {R : Pairing} {lookup lookup' : String → Option Symbol}

theorem skipSeparator_suffix (toks : List Token) : (skipSeparator toks).1 <:+ toks :=
  skipOptional_suffix _ toks

/-- Names stand for symbols that are alike. -/
def FindsLike (R : Pairing) (lookup lookup' : String → Option Symbol) : Prop :=
  ∀ name, Option.Rel (Symbol.Like R) (lookup name) (lookup' name)

/-- The rules for literals read alike from `toks`. -/
structure ReadsLike (r : Reader) (R : Pairing) (lookup lookup' : String → Option Symbol)
    (toks : List Token) : Prop where
  literal : Agree (Parsed.Related (Literal.Like R)) (literal r lookup toks)
    (literal r lookup' toks)
  items : Agree (Parsed.Related (List.Forall₂ (Literal.Like R))) (literalItems r lookup toks)
    (literalItems r lookup' toks)
  entries : Agree (Parsed.Related (List.Forall₂ (Value.Entrywise (Literal.Like R))))
    (literalEntries r lookup toks) (literalEntries r lookup' toks)

theorem wordLiteral_agree {t : Token} (finds : FindsLike R lookup lookup') :
    Agree (Literal.Like R) (wordLiteral r lookup t) (wordLiteral r lookup' t) := by
  unfold wordLiteral
  split
  · exact .ok (.atom rfl)
  · exact .ok (.atom rfl)
  · exact .ok (.atom rfl)
  · have found := finds t.text
    generalize lookup t.text = x at found
    generalize lookup' t.text = y at found
    cases found with
    | none => exact .error _
    | some symbol =>
        have kind := symbol.kind
        cases symbol with
        | const constant => exact .ok (.const constant)
        | element element => exact .ok (.enum element)
        | _ =>
            dsimp only
            rw [kind]
            exact .error _

theorem scalarLiteral_agree {t : Token} (finds : FindsLike R lookup lookup') :
    Agree (Literal.Like R) (scalarLiteral r lookup t) (scalarLiteral r lookup' t) := by
  have spelled {γ : Type} {y : Except SourceError γ} {f : γ → Literal}
      (atomic : ∀ a, (f a).isAtom = true) : Agree (Literal.Like R) (y.map f) (y.map f) := by
    cases y with
    | error e => exact .error e
    | ok a => exact .ok (.atom (atomic a))
  unfold scalarLiteral
  split
  · exact spelled fun _ => rfl
  · split
    · exact .ok (.atom rfl)
    · exact .error _
  · exact spelled fun _ => rfl
  · exact spelled fun _ => rfl
  · exact wordLiteral_agree finds
  · exact .error _

section

variable (finds : FindsLike R lookup lookup')
  (shorter : ∀ rest : List Token, rest.length < toks.length → ReadsLike r R lookup lookup' rest)
include finds shorter

theorem literal_agree_of_shorter :
    Agree (Parsed.Related (Literal.Like R)) (literal r lookup toks) (literal r lookup' toks) := by
  unfold literal
  cases toks with
  | nil => exact .error _
  | cons t rest =>
      have ahead := shorter rest (by simp)
      have behind := List.suffix_cons t rest
      dsimp only
      split
      · refine .bind ahead.items ?_
        rintro ⟨items, _, _⟩ ⟨items', _, _⟩ ⟨rfl, suffix, related⟩
        exact .ok ⟨rfl, suffix.trans behind, .of_items related⟩
      · split
        · refine .bind ahead.entries ?_
          rintro ⟨entries, _, _⟩ ⟨entries', _, _⟩ ⟨rfl, suffix, related⟩
          exact .ok ⟨rfl, suffix.trans behind, .of_entries related⟩
        · exact .bind (scalarLiteral_agree finds) fun _ _ like => .ok ⟨rfl, behind, like⟩

theorem literalEntry_agree :
    Agree (Parsed.Related (Value.Entrywise (Literal.Like R))) (literalEntry r lookup toks)
      (literalEntry r lookup' toks) := by
  unfold literalEntry
  refine .bind (literal_agree_of_shorter finds shorter) ?_
  rintro ⟨key, atColon, keyShorter⟩ ⟨key', _, _⟩ ⟨rfl, keySuffix, keys⟩
  refine .bind (.self _) ?_
  rintro ⟨_, atValue, colonShorter⟩ _ ⟨rfl, readColon⟩
  have colonSuffix := Reader.take_suffix readColon
  refine .bind (shorter atValue (Nat.lt_trans colonShorter keyShorter)).literal ?_
  rintro ⟨value, _, _⟩ ⟨value', _, _⟩ ⟨rfl, valueSuffix, values⟩
  exact .ok ⟨rfl, (valueSuffix.trans colonSuffix).trans keySuffix, keys, values⟩

end

theorem readsLike (finds : FindsLike R lookup lookup') (toks : List Token) :
    ReadsLike r R lookup lookup' toks := by
  induction size : toks.length using Nat.strongRecOn generalizing toks with
  | ind n ih =>
      have shorter (rest : List Token) (bound : rest.length < toks.length) :
          ReadsLike r R lookup lookup' rest :=
        ih _ (size ▸ bound) rest rfl
      constructor
      · exact literal_agree_of_shorter finds shorter
      · unfold literalItems
        split
        · rename_i skipped
          exact .ok ⟨rfl, skipIf?_suffix skipped, .nil⟩
        · refine .bind (literal_agree_of_shorter finds shorter) ?_
          rintro ⟨item, afterItem, _⟩ ⟨item', _, _⟩ ⟨rfl, itemSuffix, first⟩
          have separated := skipSeparator_suffix afterItem
          dsimp only
          generalize skipSeparator afterItem = next at separated ⊢
          obtain ⟨next, _⟩ := next
          refine .bind (shorter next (by omega)).items ?_
          rintro ⟨items, _, _⟩ ⟨items', _, _⟩ ⟨rfl, suffix, more⟩
          exact .ok ⟨rfl, (suffix.trans separated).trans itemSuffix, .cons first more⟩
      · unfold literalEntries
        split
        · rename_i skipped
          exact .ok ⟨rfl, skipIf?_suffix skipped, .nil⟩
        · refine .bind (literalEntry_agree finds shorter) ?_
          rintro ⟨entry, afterEntry, _⟩ ⟨entry', _, _⟩ ⟨rfl, entrySuffix, first⟩
          have separated := skipSeparator_suffix afterEntry
          dsimp only
          generalize skipSeparator afterEntry = next at separated ⊢
          obtain ⟨next, _⟩ := next
          refine .bind (shorter next (by omega)).entries ?_
          rintro ⟨entries, _, _⟩ ⟨entries', _, _⟩ ⟨rfl, suffix, more⟩
          exact .ok ⟨rfl, (suffix.trans separated).trans entrySuffix, .cons first more⟩

theorem literal_agree (finds : FindsLike R lookup lookup') :
    Agree (Parsed.Related (Literal.Like R)) (literal r lookup toks) (literal r lookup' toks) :=
  (readsLike finds toks).literal

theorem fieldDefault_agree (finds : FindsLike R lookup lookup') :
    Agree (Scanned.Related (Option.Rel (Literal.Like R))) (fieldDefault r lookup toks)
      (fieldDefault r lookup' toks) := by
  unfold fieldDefault
  split
  · exact .ok ⟨rfl, List.suffix_rfl, .none⟩
  · rename_i atValue skipped
    refine .bind (literal_agree finds) ?_
    rintro ⟨lit, _, _⟩ ⟨lit', _, _⟩ ⟨rfl, suffix, like⟩
    exact .ok ⟨rfl, suffix.trans (skipIf?_suffix skipped), .some like⟩

theorem annotationValue_suffix {p : Parsed toks String} (h : annotationValue r toks = .ok p) :
    p.rest <:+ toks := by
  cases toks with
  | nil => cases h
  | cons t rest =>
      unfold annotationValue at h
      dsimp only at h
      split at h
      · obtain ⟨_, _, h⟩ := bind_eq_ok h
        cases h
        exact List.suffix_cons t rest
      · split at h <;> cases h
        exact List.suffix_cons t rest

theorem annotationEntries_suffix {acc : Annotations} {p : Parsed toks Annotations}
    (h : annotationEntries r acc toks = .ok p) : p.rest <:+ toks := by
  induction length : toks.length using Nat.strongRecOn generalizing toks acc p with
  | ind length ih =>
      unfold annotationEntries at h
      split at h
      · rename_i skipped
        cases h
        exact skipIf?_suffix skipped
      · obtain ⟨⟨key, afterKey, _⟩, readKey, h⟩ := bind_eq_ok h
        have keySuffix := Reader.take_suffix readKey
        -- The entries go on after the separator, behind the key or behind its value.
        have goesOn {acc : Annotations} {after : List Token} {q : Parsed _ Annotations}
            (before : after <:+ afterKey)
            (further : annotationEntries r acc (skipSeparator after).1 = .ok q) :
            q.rest <:+ toks := by
          have separated := skipSeparator_suffix after
          have shorter := Nat.le_trans separated.length_le before.length_le
          dsimp only at keySuffix
          exact ((ih _ (by omega) further rfl).trans separated).trans (before.trans keySuffix)
        dsimp only at h
        split at h
        · rename_i skipped
          obtain ⟨⟨value, afterValue, _⟩, readValue, h⟩ := bind_eq_ok h
          obtain ⟨rest, further, h⟩ := bind_eq_ok h
          cases h
          exact goesOn ((annotationValue_suffix readValue).trans (skipIf?_suffix skipped)) further
        · obtain ⟨rest, further, h⟩ := bind_eq_ok h
          cases h
          exact goesOn List.suffix_rfl further

theorem annotations_suffix {p : Scanned toks Annotations} (h : annotations r toks = .ok p) :
    p.rest <:+ toks := by
  unfold annotations at h
  split at h
  · cases h
    exact List.suffix_rfl
  · rename_i skipped
    obtain ⟨entries, read, h⟩ := bind_eq_ok h
    cases h
    exact (annotationEntries_suffix read).trans (skipIf?_suffix skipped)

theorem requiredness_suffix (toks : List Token) : (requiredness toks).2.1 <:+ toks := by
  unfold requiredness
  split
  · rename_i skipped
    exact skipIf?_suffix skipped
  · exact skipOptional_suffix _ toks

theorem onewayMark_suffix (toks : List Token) : (onewayMark toks).2.1 <:+ toks := by
  unfold onewayMark
  split
  · rename_i skipped
    exact skipIf?_suffix skipped
  · exact List.suffix_rfl

theorem enumElement_agree {b b' : EnumBuilder} (like : b.Like R b') :
    Agree (Parsed.Related (EnumBuilder.Like R)) (enumElement r b toks) (enumElement r b' toks) := by
  unfold enumElement
  refine .bind (.self _) ?_
  rintro ⟨name, afterName, _⟩ _ ⟨rfl, readName⟩
  have nameSuffix := Reader.take_suffix readName
  dsimp only
  split
  · rename_i skipped
    refine .bind (.self _) ?_
    rintro ⟨idToken, afterId, _⟩ _ ⟨rfl, readId⟩
    have idSuffix := (Reader.take_suffix readId).trans (skipIf?_suffix skipped)
    refine .bind (.self _) ?_
    rintro id _ ⟨rfl, _⟩
    refine .bind (Reader.blame_agree (like.addWithId _ _)) fun _ _ added => .ok ?_
    exact ⟨rfl, idSuffix.trans nameSuffix, added⟩
  · refine .bind (Reader.blame_agree (like.add _)) fun _ _ added => .ok ?_
    exact ⟨rfl, nameSuffix, added⟩

theorem enumElements_agree {b b' : EnumBuilder} (like : b.Like R b') :
    Agree (Parsed.Related (EnumBuilder.Like R)) (enumElements r b toks)
      (enumElements r b' toks) := by
  induction length : toks.length using Nat.strongRecOn generalizing toks b b' with
  | ind length ih =>
      unfold enumElements
      split
      · rename_i skipped
        exact .ok ⟨rfl, skipIf?_suffix skipped, like⟩
      · refine .bind (enumElement_agree like) ?_
        rintro ⟨b, afterElement, _⟩ ⟨b', _, _⟩ ⟨rfl, elementSuffix, like⟩
        refine .bind (.self _) ?_
        rintro ⟨_, afterNotes, _⟩ _ ⟨rfl, readNotes⟩
        have notesSuffix := annotations_suffix readNotes
        have separated := skipSeparator_suffix afterNotes
        dsimp only
        generalize skipSeparator afterNotes = next at separated ⊢
        obtain ⟨next, _⟩ := next
        refine .bind (ih next.length (by omega) like rfl) ?_
        rintro ⟨b, _, _⟩ ⟨b', _, _⟩ ⟨rfl, suffix, like⟩
        exact .ok ⟨rfl, ((suffix.trans separated).trans notesSuffix).trans elementSuffix, like⟩

theorem extendsClause_agree {s s' : ModelSet} {m m' : Model}
    (models : List.Forall₂ (Model.Like R) s.models s'.models) (like : m.Like R m') :
    Agree (Scanned.Related (Option.Rel Service.Alike)) (extendsClause r m s toks)
      (extendsClause r m' s' toks) := by
  unfold extendsClause
  split
  · exact .ok ⟨rfl, List.suffix_rfl, .none⟩
  · rename_i skipped
    refine .bind (.self _) ?_
    rintro ⟨name, afterName, _⟩ _ ⟨rfl, readName⟩
    have suffix := (Reader.take_suffix readName).trans (skipIf?_suffix skipped)
    refine .bind (Reader.blame_agree (like.lookupService models _)) fun _ _ parent => .ok ?_
    exact ⟨rfl, suffix, .some parent⟩

theorem namespaceDecl_agree {m m' : Model} (like : m.Like R m') :
    Agree (Parsed.Related fun a b => a.name = m.name ∧ a.Like R b) (namespaceDecl r m toks)
      (namespaceDecl r m' toks) := by
  unfold namespaceDecl
  refine .bind (.self _) ?_
  rintro ⟨keyword, afterKeyword, _⟩ _ ⟨rfl, readKeyword⟩
  refine .bind (.self _) ?_
  rintro ⟨generator, afterGenerator, _⟩ _ ⟨rfl, readGenerator⟩
  refine .bind (.self _) ?_
  rintro ⟨name, afterName, _⟩ _ ⟨rfl, readName⟩
  have suffix := ((Reader.take_suffix readName).trans (Reader.take_suffix readGenerator)).trans
    (Reader.take_suffix readKeyword)
  refine .bind (Reader.blame_agree (like.addNamespace _)) fun _ _ added => .ok ?_
  exact ⟨rfl, suffix, added⟩

end Idl

end IdlGen
