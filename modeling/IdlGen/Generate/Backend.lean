import IdlGen.Generate.World
import IdlGen.Spec.Options

/-!
# Backends

A generator entry is carried out by a backend, which the entry names. Backends are registered by
name and listed in the order of their names.
-/

namespace IdlGen

/-- A generator entry of a target, with everything that it inherits. -/
structure Entry where
  target : String
  index : Nat
  config : Section

namespace Entry

/-- How messages name the entry. -/
def id (e : Entry) : String := entryId e.target e.index

end Entry

structure Backend where
  name : String
  generate : Entry → RunM Unit

/-- Backends by name, each name once and in order. -/
structure Backends where
  entries : List (String × Backend)

namespace Backends

def empty : Backends := ⟨[]⟩

/-- Registers a backend. A name that is taken stands for the new one from then on. -/
def register (bs : Backends) (name : String) (b : Backend) : Backends := ⟨insert bs.entries⟩
where
  insert : List (String × Backend) → List (String × Backend)
    | [] => [(name, b)]
    | (n, other) :: rest =>
      if n = name then (name, b) :: rest
      else if n < name then (n, other) :: insert rest
      else (name, b) :: (n, other) :: rest

def find? (bs : Backends) (name : String) : Option Backend := bs.entries.lookup name

def names (bs : Backends) : List String := bs.entries.map (·.1)

/-- The name of the backend for entries that name none. -/
def defaultName : String := "template"

end Backends

end IdlGen
