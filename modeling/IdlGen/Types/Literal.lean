import IdlGen.Decimal.Shortest
import IdlGen.Text.Escaped
import IdlGen.Types.Basic

/-!
# Literals and constants

A literal is what a definition writes where a value is wanted. It can refer to a constant, which
holds a value that was checked against the constant's own type when it was declared.
-/

namespace IdlGen

/-- A named value of a type. -/
structure Constant where
  model : Option String
  name : String
  type : Ty
  value : Value
  docs : Docs

namespace Constant

def qname (c : Constant) : String := qualify c.model c.name

/-- Equality of constants: same place, same type, equal values. Documentation does not count. -/
def equal (a b : Constant) : Bool :=
  a.model = b.model && a.name = b.name && a.type.same b.type && a.value.equal b.value

end Constant

inductive Literal where
  | null
  | bool (value : Bool)
  | int (value : Int)
  | double (value : Double)
  | char (value : Char)
  | str (value : String)
  | binary (bytes : List UInt8)
  | list (items : List Literal)
  | map (entries : List (Literal × Literal))
  | enum (element : EnumElement)
  | const (constant : Constant)

namespace Literal

mutual

/-- The literal that a value is written as. Sets are written as lists. -/
def ofValue : Value → Literal
  | .null => null
  | .bool b => bool b
  | .int n => int n
  | .double d => double d
  | .char c => char c
  | .str s => str s
  | .binary bytes => binary bytes
  | .list items => list (ofValues items)
  | .set items => list (ofValues items)
  | .map entries => map (ofEntries entries)
  | .enum e => enum e

def ofValues : List Value → List Literal
  | [] => []
  | v :: rest => ofValue v :: ofValues rest

def ofEntries : List (Value × Value) → List (Literal × Literal)
  | [] => []
  | (k, v) :: rest => (ofValue k, ofValue v) :: ofEntries rest

end

/-- Texts between two marks, a comma and a space after each but the last. -/
def enclose (before after : String) (texts : List String) : String :=
  before ++ ", ".intercalate texts ++ after

mutual

/-- The literal as messages show it. -/
def render : Literal → String
  | null => "null"
  | bool b => if b then "true" else "false"
  | int n => toString n
  | double d => Decimal.render d
  | char c => Text.showChar c
  | str s => Text.showString s
  | binary bytes => s!"<{bytes.length} bytes>"
  | list items => enclose "[" "]" (renderAll items)
  | map entries => enclose "\x7b" "\x7d" (renderEntries entries)
  | enum e => e.qname
  | const c => c.qname

def renderAll : List Literal → List String
  | [] => []
  | l :: rest => l.render :: renderAll rest

def renderEntries : List (Literal × Literal) → List String
  | [] => []
  | (k, v) :: rest => (k.render ++ ": " ++ v.render) :: renderEntries rest

end

end Literal

namespace Value

mutual

/-- The value as messages show it: sets in braces, except inside maps. -/
def render : Value → String
  | .list items => Literal.enclose "[" "]" (renderAll items)
  | .set items => Literal.enclose "\x7b" "\x7d" (renderAll items)
  | v => (Literal.ofValue v).render

def renderAll : List Value → List String
  | [] => []
  | v :: rest => v.render :: renderAll rest

end

end Value

/-- The declaration of a constant as messages show it. -/
def Constant.render (c : Constant) : String :=
  s!"const {c.type.qname} {c.qname} = {c.value.render}"

end IdlGen
