import IdlGen.Proofs.Model.Registry
import IdlGen.Proofs.Tree.Sections
import IdlGen.Spec.Grammar

/-!
# Specs repeat no key

A spec is read member by member, and each member is written over what was read before. So no object
of a spec repeats a key, even where its text does.
-/

namespace IdlGen

namespace Spec

variable {r : Reader}

@[simp] theorem isKeyed_scalar (word : String) : (scalar word).isKeyed := by
  unfold scalar
  split <;> rfl

/-- What the rules of the grammar read from `toks` repeats no key. -/
structure ReadsKeyed (r : Reader) (toks : List Token) : Prop where
  value : ∀ {out : Parsed toks Tree}, value r toks = .ok out → out.value.isKeyed
  member : ∀ {out : Parsed toks (String × Tree)}, member r toks = .ok out → out.value.2.isKeyed
  members : ∀ {s : Section} {out : Parsed toks Section}, s.Keyed → members r s toks = .ok out →
    out.value.Keyed
  items : ∀ {out : Parsed toks (List Tree)}, items r toks = .ok out → ∀ x ∈ out.value, x.isKeyed

theorem value_isKeyed {toks : List Token}
    (shorter : ∀ rest : List Token, rest.length < toks.length → ReadsKeyed r rest)
    {out : Parsed toks Tree} (h : Spec.value r toks = .ok out) : out.value.isKeyed := by
  unfold Spec.value at h
  cases toks with
  | nil => cases h
  | cons t rest =>
      have ahead := shorter rest (by simp)
      simp only at h
      split at h
      · obtain ⟨text, _, h⟩ := bind_eq_ok h
        cases h
        rfl
      · split at h
        · cases h
          exact isKeyed_scalar t.text
        · split at h
          · obtain ⟨s, read, h⟩ := bind_eq_ok h
            cases h
            exact ahead.members Section.keyed_nil read
          · split at h
            · obtain ⟨xs, read, h⟩ := bind_eq_ok h
              cases h
              exact Tree.isKeyed_list_iff.2 (ahead.items read)
            · cases h

theorem member_isKeyed {toks : List Token}
    (shorter : ∀ rest : List Token, rest.length < toks.length → ReadsKeyed r rest)
    {out : Parsed toks (String × Tree)} (h : Spec.member r toks = .ok out) :
    out.value.2.isKeyed := by
  unfold Spec.member at h
  obtain ⟨k, _, h⟩ := bind_eq_ok h
  obtain ⟨colon, _, h⟩ := bind_eq_ok h
  obtain ⟨v, read, h⟩ := bind_eq_ok h
  cases h
  exact (shorter _ (Nat.lt_trans colon.shorter k.shorter)).value read

theorem readsKeyed (r : Reader) (toks : List Token) : ReadsKeyed r toks := by
  induction size : toks.length using Nat.strongRecOn generalizing toks with
  | ind n ih =>
      have shorter (rest : List Token) (bound : rest.length < toks.length) : ReadsKeyed r rest :=
        ih _ (size ▸ bound) rest rfl
      constructor
      · exact value_isKeyed shorter
      · exact member_isKeyed shorter
      · intro s out keyed h
        unfold Spec.members at h
        split at h
        · cases h
          exact keyed
        · obtain ⟨m, read, h⟩ := bind_eq_ok h
          obtain ⟨more, readMore, h⟩ := bind_eq_ok h
          cases h
          have inserted := keyed.insert m.value.1 (member_isKeyed shorter read)
          exact (shorter _ m.shorter).members inserted readMore
      · intro out h x listed
        unfold Spec.items at h
        split at h
        · cases h
          exact absurd listed List.not_mem_nil
        · obtain ⟨item, read, h⟩ := bind_eq_ok h
          obtain ⟨more, readMore, h⟩ := bind_eq_ok h
          cases h
          obtain rfl | listed := List.mem_cons.1 listed
          · exact value_isKeyed shorter read
          · refine (shorter _ ?_).items readMore x listed
            exact Nat.lt_of_le_of_lt (skipComma item.rest).2 item.shorter

theorem rootMembers_keyed {s out : Section} {toks : List Token} (keyed : s.Keyed)
    (h : rootMembers r s toks = .ok out) : out.Keyed := by
  induction size : toks.length using Nat.strongRecOn generalizing toks s with
  | ind n ih =>
      unfold rootMembers at h
      cases toks with
      | nil =>
          cases h
          exact keyed
      | cons t rest =>
          obtain ⟨m, read, h⟩ := bind_eq_ok h
          have inserted := keyed.insert m.value.1 ((readsKeyed r (t :: rest)).member read)
          exact ih _ (size ▸ m.shorter) inserted h rfl

/-- A spec repeats no key, whatever its text repeats. -/
theorem parse_keyed {file text : String} {s : Section} (h : parse file text = .ok s) :
    s.Keyed := by
  obtain ⟨tokens, _, h⟩ := bind_eq_ok h
  unfold root at h
  split at h
  · exact rootMembers_keyed Section.keyed_nil h
  · obtain ⟨⟨braced, rest, _⟩, read, h⟩ := bind_eq_ok h
    cases rest with
    | nil =>
        cases h
        exact (readsKeyed _ _).members Section.keyed_nil read
    | cons t rest => cases h

end Spec

end IdlGen
