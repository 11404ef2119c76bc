import IdlGen.Idl.LoadM

/-!
# The grammar of types

A type is named, or it is a container written as `list<T>`, `set<T>` or `map<K,V>`. Reading a
container makes its type known to the model set.
-/

namespace IdlGen.Idl

/-- The record whose fields are being read: its keyword and its name. It has no type yet, so a field
that names it is refused in words of its own. -/
abbrev Declaring := Option (String × String)

/-- The type of a name. -/
def namedType (r : Reader) (m : Model) (declaring : Declaring) (t : Token) (s : ModelSet) :
    Except SourceError Ty :=
  match m.lookupType s t.text with
  | some ty => .ok ty
  | none =>
    match declaring with
    | some (keyword, name) =>
      if t.text = name || t.text = m.qname name then r.fail t (.selfReference keyword name)
      else r.fail t (.unknownType t.text)
    | none => r.fail t (.unknownType t.text)

/-- A type. Only a function's result can be `void`. -/
def typeExpr (r : Reader) (m : Model) (declaring : Declaring) (allowVoid : Bool)
    (toks : List Token) : LoadM (Parsed toks Ty) :=
  match toks with
  | [] => r.expected .type []
  | t :: rest =>
    if t.kind ≠ .word then r.expected .type (t :: rest)
    else
      match t.text with
      | "void" =>
        if allowVoid then return ⟨.void, rest, by simp⟩ else r.fail t .misplacedVoid
      | "i8" => return ⟨.prim (.int .w8), rest, by simp⟩
      | "list" => do
        let ⟨_, inside, _⟩ ← r.expect "<" rest
        let ⟨elem, afterElem, _⟩ ← typeExpr r m declaring false inside
        let ⟨_, rest, _⟩ ← r.expect ">" afterElem
        let ty ← LoadM.updateSet (·.listType elem)
        return ⟨ty, rest, by simp; omega⟩
      | "set" => do
        let ⟨_, inside, _⟩ ← r.expect "<" rest
        let ⟨elem, afterElem, _⟩ ← typeExpr r m declaring false inside
        let ⟨_, rest, _⟩ ← r.expect ">" afterElem
        let ty ← LoadM.updateSet (·.setType elem)
        return ⟨ty, rest, by simp; omega⟩
      | "map" => do
        let ⟨_, inside, _⟩ ← r.expect "<" rest
        let ⟨key, afterKey, _⟩ ← typeExpr r m declaring false inside
        let ⟨_, afterComma, _⟩ ← r.expect "," afterKey
        let ⟨value, afterValue, _⟩ ← typeExpr r m declaring false afterComma
        let ⟨_, rest, _⟩ ← r.expect ">" afterValue
        let ty ← LoadM.updateSet (·.mapType key value)
        return ⟨ty, rest, by simp; omega⟩
      | _ => do
        let ty ← namedType r m declaring t (← LoadM.getSet)
        return ⟨ty, rest, by simp⟩
termination_by toks.length
decreasing_by all_goals simp; omega

end IdlGen.Idl
