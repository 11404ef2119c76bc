import IdlGen.Tree

/-!
# Templates

A template is text with places for the values of expressions, with parts that are repeated for the
items of a value and parts that depend on a test.
-/

namespace IdlGen

namespace Template

/-- How two neighbours in a comparison have to compare. -/
inductive Relation where
  | same | different
deriving DecidableEq, Repr

inductive Expr where
  | literal (value : Tree)
  | name (id : String)
  | member (parent : Expr) (key : String)
  | item (parent index : Expr)
  | filter (name : String) (input : Expr) (args : List Expr)
  | call (callee : Expr) (args : List Expr)
  | negation (e : Expr)
  /-- Holds if every expression compares with the next one as it has to. -/
  | comparison (first : Expr) (others : List (Relation × Expr))
deriving Repr, Inhabited

inductive Node where
  | text (content : String)
  | value (e : Expr)
  /-- `otherwise` stands in when there are no items. -/
  | each (name : String) (items : Expr) (body otherwise : List Node)
  | choice (test : Expr) (body otherwise : List Node)
deriving Repr, Inhabited

end Template

structure Template where
  nodes : List Template.Node
  /-- Whether values are written by reference where they would mean markup. -/
  markup : Bool
deriving Repr

end IdlGen
