import IdlGen.Model.Basic
import IdlGen.Tree

/-!
# Models as data

What a template sees of a model: a tree of plain data in which types are described where they are
mentioned. Maps become lists of entries, because their keys need not be texts.
-/

namespace IdlGen.View

def text (s : String) : Tree := .str s

def optional (s : Option String) : Tree := (s.map text).getD .null

def texts (lines : List String) : Tree := .list (lines.map text)

def docs (d : Docs) : Tree := texts (d.getD [])

def notes (a : Annotations) : Tree := .object (a.map fun (k, v) => (k, text v))

/-- The description of a type. -/
def type (t : Ty) : Tree :=
  let describe (elements : List Tree) : Tree := .object
    [("name", text t.name), ("qname", text t.qname), ("model", optional t.modelName?),
     ("category", text t.category.text), ("base", text ((t.base?.map (·.name)).getD t.name)),
     ("is_list", .bool t.isList), ("is_set", .bool t.isSet), ("is_map", .bool t.isMap),
     ("is_union", .bool t.isUnion), ("elements", .list elements)]
  match t with
  | .list _ e => describe [type e]
  | .set _ e => describe [type e]
  | .map _ k v => describe [type k, type v]
  | _ => describe []
termination_by structural t

mutual

/-- The data in a value. A number that is not finite is shown as nothing. -/
def value : Value → Tree
  | .null => .null
  | .bool b => .bool b
  | .int n => .int n
  | .double d => if d.isFinite then .double d else .null
  | .char c => text c.toString
  | .str s => text s
  | .binary bytes => .list (bytes.map fun b => .int b.toNat)
  | .list items => .list (values items)
  | .set items => .list (values items)
  | .map es => .list (entries es)
  | .enum e => .object [("enum", text e.enumName), ("name", text e.name), ("value", .int e.value)]

def values : List Value → List Tree
  | [] => []
  | v :: rest => value v :: values rest

def entries : List (Value × Value) → List Tree
  | [] => []
  | (k, v) :: rest => .object [("key", value k), ("value", value v)] :: entries rest

end

def field (f : Field Ty) : Tree := .object
  [("id", .int f.id), ("name", text f.name), ("type", type f.type),
   ("required", .bool f.required), ("default", (f.default.map value).getD .null),
   ("annotations", notes f.annotations), ("docs", docs f.docs)]

def fields (s : FieldSet Ty) : Tree := .list (s.fields.map field)

def constant (c : Constant) : Tree := .object
  [("name", text c.name), ("qname", text c.qname), ("type", type c.type),
   ("value", value c.value), ("docs", docs c.docs)]

/-- The description of a type that is an enumeration. -/
def enumeration? (t : Ty) : Option Tree :=
  t.enumeration?.map fun body => .object
    [("name", text t.name), ("qname", text t.qname),
     ("elements", .list (body.elements.map fun e =>
       .object [("name", text e.name), ("value", .int e.value)])),
     ("docs", docs body.docs)]

/-- The description of a type that is a record. -/
def record? (t : Ty) : Option Tree :=
  t.record?.map fun body => .object
    [("name", text t.name), ("qname", text t.qname), ("is_union", .bool body.isUnion),
     ("is_exception", .bool t.isException), ("fields", fields body.fields),
     ("annotations", notes body.annotations), ("docs", docs body.docs)]

def function (f : Function) : Tree := .object
  [("name", text f.name), ("return_type", type f.result), ("oneway", .bool f.oneway),
   ("args", fields f.args), ("throws", fields f.throws), ("docs", docs f.docs)]

def service (s : Service) : Tree := .object
  [("name", text s.name), ("qname", text s.qname),
   ("extends", optional (s.parent?.map (·.qname))),
   ("functions", .list (s.functions.map function)),
   ("defined_functions", .list (s.body.functions.map function)),
   ("docs", docs s.body.docs)]

def model (m : Model) : Tree := .object
  [("name", optional m.name), ("includes", texts m.includes),
   ("namespaces", .list (m.namespaces.map fun ns =>
     .object [("generator", text ns.generator), ("namespace", text ns.name)])),
   ("consts", .list (m.consts.map constant)),
   ("enums", .list (m.enums.filterMap enumeration?)),
   ("structs", .list ((m.structs.filter (!·.isUnion)).filterMap record?)),
   ("unions", .list ((m.structs.filter (·.isUnion)).filterMap record?)),
   ("exceptions", .list (m.exceptions.filterMap record?)),
   ("services", .list (m.services.map service))]

end IdlGen.View
