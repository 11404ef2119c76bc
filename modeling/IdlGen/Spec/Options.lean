import IdlGen.Text.Blank
import IdlGen.Tree

/-!
# Options

How the members of a section are read: blank texts count as absent, and a single value counts as a
list of one.
-/

namespace IdlGen

namespace Section

/-- The text of a key without blanks at its ends, if there is anything left. -/
def text? (s : Section) (key : String) : Option String :=
  match s.get? key with
  | some (.str value) =>
    let trimmed := Text.trim value
    if trimmed.isEmpty then none else some trimmed
  | _ => none

def textOr (s : Section) (key default : String) : String := (s.text? key).getD default

/-- The section of a key; empty when there is none. -/
def sub (s : Section) (key : String) : Section :=
  match s.get? key with
  | some (.object members) => members
  | _ => []

/-- The items of a key. -/
def items (s : Section) (key : String) : List Tree :=
  match s.get? key with
  | none => []
  | some .null => []
  | some (.list xs) => xs
  | some value => [value]

end Section

/-- How messages name the generator at a place in a target's list. -/
def entryId (target : String) (index : Nat) : String := s!"{target}[{index}]"

end IdlGen
