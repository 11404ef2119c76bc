import IdlGen.Idl.Field
import IdlGen.Proofs.Model.Valid

/-!
# Literals refer to constants that were made by checks

A literal that is read refers to constants by name. Where every constant that a name can stand for
was made by a check, so was every constant that the literal refers to.
-/

namespace IdlGen.Idl

variable {r : Reader} {lookup : String → Option Symbol} {space : TypeSpace}

/-- The constants that names stand for were made by checks. -/
def FindsBuilt (space : TypeSpace) (lookup : String → Option Symbol) : Prop :=
  ∀ name c, lookup name = some (.const c) → c.Built space

/-- The rules for literals read from `toks` what refers to constants made by checks only. -/
structure ReadsBuilt (space : TypeSpace) (r : Reader) (lookup : String → Option Symbol)
    (toks : List Token) : Prop where
  literal : ∀ {p : Parsed toks Literal}, literal r lookup toks = .ok p → p.value.Built space
  items : ∀ {p : Parsed toks (List Literal)}, literalItems r lookup toks = .ok p →
    ∀ item ∈ p.value, item.Built space
  entry : ∀ {p : Parsed toks (Literal × Literal)}, literalEntry r lookup toks = .ok p →
    p.value.1.Built space ∧ p.value.2.Built space
  entries : ∀ {p : Parsed toks (List (Literal × Literal))}, literalEntries r lookup toks = .ok p →
    ∀ entry ∈ p.value, entry.1.Built space ∧ entry.2.Built space

theorem wordLiteral_built {t : Token} {lit : Literal}
    (known : FindsBuilt space lookup) (h : wordLiteral r lookup t = .ok lit) : lit.Built space := by
  unfold wordLiteral at h
  split at h
  · cases h
    exact Literal.built_plain rfl
  · cases h
    exact Literal.built_plain rfl
  · cases h
    exact Literal.built_plain rfl
  · split at h
    · next found =>
        cases h
        intro c inside
        cases List.mem_singleton.mp inside
        exact known _ _ found
    · cases h
      exact Literal.built_plain rfl
    · cases h
    · cases h

theorem scalarLiteral_built {t : Token} {lit : Literal}
    (known : FindsBuilt space lookup) (h : scalarLiteral r lookup t = .ok lit) :
    lit.Built space := by
  have spelled {α : Type} {y : Except SourceError α} {f : α → Literal}
      (none : ∀ a, (f a).constants = []) (h : y.map f = .ok lit) : lit.Built space := by
    cases y with
    | error e => cases h
    | ok a =>
        cases h
        exact Literal.built_plain (none a)
  unfold scalarLiteral at h
  split at h
  · exact spelled (fun _ => rfl) h
  · split at h
    · cases h
      exact Literal.built_plain rfl
    · cases h
  · exact spelled (fun _ => rfl) h
  · exact spelled (fun _ => rfl) h
  · exact wordLiteral_built known h
  · cases h

theorem literal_built {toks : List Token} (known : FindsBuilt space lookup)
    (shorter : ∀ rest : List Token, rest.length < toks.length → ReadsBuilt space r lookup rest)
    {p : Parsed toks Literal} (h : literal r lookup toks = .ok p) : p.value.Built space := by
  unfold literal at h
  cases toks with
  | nil => cases h
  | cons t rest =>
      have ahead := shorter rest (by simp)
      simp only at h
      split at h
      · obtain ⟨items, read, h⟩ := bind_eq_ok h
        cases h
        exact Literal.built_list (ahead.items read)
      · split at h
        · obtain ⟨entries, read, h⟩ := bind_eq_ok h
          cases h
          exact Literal.built_map (ahead.entries read)
        · obtain ⟨lit, read, h⟩ := bind_eq_ok h
          cases h
          exact scalarLiteral_built known read

theorem literalEntry_built {toks : List Token} (known : FindsBuilt space lookup)
    (shorter : ∀ rest : List Token, rest.length < toks.length → ReadsBuilt space r lookup rest)
    {p : Parsed toks (Literal × Literal)} (h : literalEntry r lookup toks = .ok p) :
    p.value.1.Built space ∧ p.value.2.Built space := by
  unfold literalEntry at h
  obtain ⟨key, readKey, h⟩ := bind_eq_ok h
  obtain ⟨colon, _, h⟩ := bind_eq_ok h
  obtain ⟨value, readValue, h⟩ := bind_eq_ok h
  cases h
  refine ⟨literal_built known shorter readKey, ?_⟩
  exact (shorter _ (Nat.lt_trans colon.shorter key.shorter)).literal readValue

theorem readsBuilt (known : FindsBuilt space lookup) (toks : List Token) :
    ReadsBuilt space r lookup toks := by
  induction size : toks.length using Nat.strongRecOn generalizing toks with
  | ind n ih =>
      have shorter (rest : List Token) (bound : rest.length < toks.length) :
          ReadsBuilt space r lookup rest :=
        ih _ (size ▸ bound) rest rfl
      constructor
      · exact literal_built known shorter
      · intro p h item member
        unfold literalItems at h
        split at h
        · cases h
          exact absurd member List.not_mem_nil
        · obtain ⟨first, read, h⟩ := bind_eq_ok h
          obtain ⟨more, readMore, h⟩ := bind_eq_ok h
          cases h
          obtain rfl | member := List.mem_cons.mp member
          · exact literal_built known shorter read
          · refine (shorter _ ?_).items readMore item member
            exact Nat.lt_of_le_of_lt (skipSeparator first.rest).2 first.shorter
      · exact literalEntry_built known shorter
      · intro p h entry member
        unfold literalEntries at h
        split at h
        · cases h
          exact absurd member List.not_mem_nil
        · obtain ⟨first, read, h⟩ := bind_eq_ok h
          obtain ⟨more, readMore, h⟩ := bind_eq_ok h
          cases h
          obtain rfl | member := List.mem_cons.mp member
          · exact literalEntry_built known shorter read
          · refine (shorter _ ?_).entries readMore entry member
            exact Nat.lt_of_le_of_lt (skipSeparator first.rest).2 first.shorter

theorem fieldDefault_built {toks : List Token} {p : Scanned toks (Option Literal)}
    (known : FindsBuilt space lookup) (h : fieldDefault r lookup toks = .ok p) :
    ∀ lit, p.value = some lit → lit.Built space := by
  intro lit given
  unfold fieldDefault at h
  split at h
  · cases h
    cases given
  · obtain ⟨read, parsed, h⟩ := bind_eq_ok h
    cases h
    cases given
    exact (readsBuilt known _).literal parsed

end IdlGen.Idl
