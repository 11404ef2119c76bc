/-!
# Stamps

Two declarations can agree in every word and still be different types, for instance when a model is
loaded again after a failure. What tells them apart is a stamp, a number that is given out once.
-/

namespace IdlGen

/-- The numbers that have not been given out: those from `next` on. -/
structure Stamps where
  next : Nat := 0
deriving DecidableEq, Repr, Inhabited

/-- Gives out a number. -/
def Stamps.take (s : Stamps) : Nat × Stamps := (s.next, ⟨s.next + 1⟩)

/-- A name as other models see it. -/
def qualify (model : Option String) (name : String) : String :=
  match model with
  | some m => m ++ "." ++ name
  | none => name

end IdlGen
