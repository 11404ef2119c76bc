import IdlGen.Types.Literal

/-!
# Checking literals against types

A literal that fits a type gives a value of it. Some literals change form on the way: numbers become
truth values or doubles, lists become sets, byte lists become binary data. A reference to a constant
of the very same type gives the constant's value; any other constant is judged by its value alone.
-/

namespace IdlGen

/-- The largest magnitude below which every whole number is a double. -/
def exactDoubleLimit : Int := Nat.pow 2 53

/-- The byte that an item of a byte list stands for. -/
def Literal.byte? : Literal → Option UInt8
  | .int n => if IntWidth.w8.holds n then some (UInt8.ofNat (n % 256).toNat) else none
  | .char c => if c.toNat ≤ 127 then some (UInt8.ofNat c.toNat) else none
  | _ => none

/-- A value of a primitive type. -/
def Primitive.check (p : Primitive) (lit : Literal) : Except ModelError Value :=
  match p, lit with
  | .bool, .bool b => .ok (.bool b)
  | .bool, .int n => .ok (.bool (n ≠ 0))
  | .bool, .double d => .ok (.bool d.reachesOne)
  | .int w, .int n =>
    if w.holds n then .ok (.int n) else .error (.outOfRange p.name (toString n))
  | .int w, .char c =>
    if w = .w8 && 127 < c.toNat then .error (.outOfRange p.name (Text.showChar c))
    else .ok (.char c)
  | .double, .double d => .ok (.double d)
  | .double, .int n =>
    if -exactDoubleLimit ≤ n && n ≤ exactDoubleLimit then .ok (.double (Double.ofInt n))
    else .error (.precisionLoss n)
  | .string, .str s => .ok (.str s)
  | .binary, .binary bytes => .ok (.binary bytes)
  | .binary, .list items =>
    match items.mapM Literal.byte? with
    | some bytes => .ok (.binary bytes)
    | none => .error (.illegalValue p.name lit.render)
  | _, _ => .error (.illegalValue p.name lit.render)

namespace Ty

/-- The value of a constant of the type itself, or the literal that is to be checked. -/
def resolve (t : Ty) : Literal → Value ⊕ Literal
  | .const c => if c.type.same t then .inl c.value else .inr (Literal.ofValue c.value)
  | lit => .inr lit

/-- The value of type `t` that a literal stands for. -/
def check (t : Ty) (lit : Literal) : Except ModelError Value :=
  match t.resolve lit with
  | .inl value => .ok value
  | .inr .null =>
    if t.isScalar || t.isEnum then .error (.nullNotPermitted t.name) else .ok .null
  | .inr lit =>
    let illegal : Except ModelError Value := .error (.illegalValue t.name lit.render)
    match t, lit with
    | .prim p, lit => p.check lit
    | .list _ e, .list items => do
      let values ← items.mapM fun item => e.check item
      .ok (.list values)
    | .set _ e, .list items => do
      let values ← items.mapM fun item => e.check item
      .ok (.set (Value.distinct values))
    | .map _ k v, .map entries => do
      let pairs ← entries.mapM fun (key, value) => do
        let key ← k.check key
        let value ← v.check value
        .ok (key, value)
      .ok (.map (Value.collapse pairs))
    | .enum _ _ _ body, .enum e => if body.owns e then .ok (.enum e) else illegal
    | _, _ => illegal
termination_by structural t

end Ty

/-- A constant whose value is the checked literal. -/
def Constant.ofLiteral (model : Option String) (name : String) (type : Ty) (lit : Literal)
    (docs : Docs) : Except ModelError Constant := do
  let value ← type.check lit
  .ok ⟨model, name, type, value, docs⟩

/-- A field whose default is the checked literal, if there is one. -/
def Field.ofLiteral (id : Int) (name : String) (type : Ty) (required : Bool)
    (default : Option Literal) (annotations : Annotations) (docs : Docs) :
    Except ModelError (Field Ty) := do
  let value ← match default with
    | some lit => (type.check lit).map some
    | none => .ok none
  .ok ⟨id, name, type, required, value, annotations, docs⟩

end IdlGen
