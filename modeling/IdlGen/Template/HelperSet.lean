import IdlGen.Naming
import IdlGen.Template.Datum

/-!
# Helper sets

What a template can call: filters, which take their input as first argument, and functions. The
filters for lengths and joined lists are always there; all others come in sets that a generator
entry asks for by name.
-/

namespace IdlGen

/-- What a filter or function does with its arguments; nothing if they do not suit it. -/
abbrev Operation := List Datum → Option Tree

structure HelperSet where
  filters : List (String × Operation) := []
  functions : List (String × Operation) := []

namespace HelperSet

/-- Both sets together. What `s` has goes before what `t` has. -/
def append (s t : HelperSet) : HelperSet :=
  ⟨s.filters ++ t.filters, s.functions ++ t.functions⟩

/-- An operation on one text. Any value is taken as the text that it prints as. -/
def onText (f : String → String) : Operation
  | [a] => some (.str (f a.print))
  | _ => none

/-- The number of characters or items. -/
def length : Operation
  | [.undefined] => none
  | [.tree .null] => none
  | [value] => value.items?.map fun xs => .int xs.length
  | _ => none

/-- The text of the items, with a separator between them. -/
def joined (separator : String) (value : Datum) : Option Tree :=
  value.items?.map fun xs => .str (separator.intercalate (xs.map (·.text false)))

/-- The text of the items. A separator that is null stands for none. -/
def join : Operation
  | [value] => joined "" value
  | [value, .tree .null] => joined "" value
  | [value, separator] => joined separator.print value
  | _ => none

/-- The filters that are always there, and the functions whose names are taken. The latter are
values like any other, but no call suits them. -/
def builtin : HelperSet where
  filters := [("length", length), ("join", join)]
  functions := ["debug", "dict", "namespace", "range"].map fun name => (name, fun _ => none)

/-- The width of a column. -/
def width? (d : Datum) : Option Nat :=
  match d.whole? with
  | some n => if 0 ≤ n && n < Nat.pow 2 64 then some n.toNat else none
  | none => none

/-- The spaces that fill a column up. -/
def pad : Operation
  | [value, width] => (width? width).map fun n =>
    .str (String.ofList (List.replicate (Naming.padding value.print n) ' '))
  | _ => none

/-- The forms of names. -/
def naming : HelperSet where
  filters :=
    [("cap", onText Naming.capitalize), ("decap", onText Naming.decapitalize),
     ("ucamel", onText Naming.upperCamel), ("lcamel", onText Naming.lowerCamel),
     ("decamel", onText Naming.snake), ("uc", onText Text.toUpper), ("lc", onText Text.toLower)]
  functions := [("pad", pad)]

end HelperSet

end IdlGen
