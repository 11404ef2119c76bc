/-!
# What a grammar rule reads

A grammar rule takes the tokens ahead and gives what it has read with the tokens that are left. The
result carries the proof that there are fewer of them, which is why the rules of a grammar end.
-/

namespace IdlGen

/-- What a rule read, and the tokens after it. -/
structure Parsed {τ : Type} (toks : List τ) (α : Type) where
  value : α
  rest : List τ
  shorter : rest.length < toks.length

/-- What a rule read that may read nothing, and the tokens after it. -/
structure Scanned {τ : Type} (toks : List τ) (α : Type) where
  value : α
  rest : List τ
  notLonger : rest.length ≤ toks.length

namespace Parsed

variable {τ α β : Type} {toks : List τ}

/-- The value of the first token, and the tokens after it. -/
def next {t : τ} {rest : List τ} (value : α) : Parsed (t :: rest) α := ⟨value, rest, by simp⟩

/-- Another value, read from the same tokens. -/
def giving (p : Parsed toks α) (value : β) : Parsed toks β := ⟨value, p.rest, p.shorter⟩

/-- What is read after `p`, as read from the start. -/
def andThen (p : Parsed toks α) (q : Parsed p.rest β) : Parsed toks β :=
  ⟨q.value, q.rest, Nat.lt_trans q.shorter p.shorter⟩

end Parsed

/-- Tokens that come later than `toks`. -/
abbrev Later {τ : Type} (toks : List τ) := { rest : List τ // rest.length < toks.length }

/-- Tokens that are `toks` or come later. -/
abbrev NotBefore {τ : Type} (toks : List τ) := { rest : List τ // rest.length ≤ toks.length }

namespace Later

variable {τ α : Type} {toks : List τ}

/-- Tokens that come later do not come before. -/
def notBefore (l : Later toks) : NotBefore toks := ⟨l.1, Nat.le_of_lt l.2⟩

/-- What is read from later tokens, as read from the start. -/
def andThen (l : Later toks) (p : Parsed l.1 α) : Parsed toks α :=
  ⟨p.value, p.rest, Nat.lt_trans p.shorter l.2⟩

end Later

/-- All tokens. -/
def NotBefore.all {τ : Type} {toks : List τ} : NotBefore toks := ⟨toks, Nat.le_refl _⟩

namespace Scanned

variable {τ α : Type} {toks : List τ}

/-- A value that no token was read for. -/
def nothing (value : α) : Scanned toks α := ⟨value, toks, Nat.le_refl _⟩

/-- What a rule read that always reads something. -/
def ofParsed (p : Parsed toks α) : Scanned toks α := ⟨p.value, p.rest, Nat.le_of_lt p.shorter⟩

end Scanned

end IdlGen
