import IdlGen.Decimal.Shortest
import IdlGen.Text.Quoted
import IdlGen.Tree

/-!
# Trees as JSON

Messages show a tree as JSON without layout. Doubles are positional from `10 ^ -5` on. A number that
is not finite has no JSON form and is shown as `null`.
-/

namespace IdlGen.Tree

mutual

/-- The tree as JSON. -/
def json : Tree → String
  | null => "null"
  | bool b => if b then "true" else "false"
  | int n => toString n
  | double x => if x.isFinite then Decimal.renderAbove (-5) x else "null"
  | str s => Text.quote s
  | list xs => "[" ++ ",".intercalate (jsonItems xs) ++ "]"
  | object ms => "\x7b" ++ ",".intercalate (jsonMembers ms) ++ "\x7d"

def jsonItems : List Tree → List String
  | [] => []
  | t :: rest => json t :: jsonItems rest

def jsonMembers : List (String × Tree) → List String
  | [] => []
  | (key, t) :: rest => (Text.quote key ++ ":" ++ json t) :: jsonMembers rest

end

end IdlGen.Tree
