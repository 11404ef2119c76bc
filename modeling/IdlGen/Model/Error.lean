/-!
# Errors of a model

What can be wrong with a declaration, apart from its grammar.
-/

namespace IdlGen

inductive ModelError where
  | duplicateModel (name : String)
  | circularInclude (name : String)
  | typeAlreadyRegistered (name : String)
  | nameAlreadyDefined (name definedBy : String)
  | duplicateNamespace (generator : String)
  | duplicateFieldId (id : Int) (owner : String)
  | duplicateFieldName (name owner : String)
  | duplicateElementName (name owner : String)
  | duplicateElementId (id : Int) (owner : String)
  | elementIdsExhausted (owner : String)
  | duplicateFunction (name owner : String)
  | outOfRange (type value : String)
  | precisionLoss (value : Int)
  | nullNotPermitted (type : String)
  | illegalValue (type value : String)
  | notAService (name found : String)
  | unknownService (name : String)
deriving DecidableEq, Repr

def ModelError.message : ModelError → String
  | duplicateModel name => s!"Model \"{name}\" already exists"
  | circularInclude name => s!"Model \"{name}\" is included recursively"
  | typeAlreadyRegistered name => s!"Type \"{name}\" already registered"
  | nameAlreadyDefined name definedBy => s!"Name \"{name}\" already defined by {definedBy}"
  | duplicateNamespace generator => s!"Duplicate namespace defined for generator \"{generator}\""
  | duplicateFieldId id owner => s!"Duplicate field id ({id}) in \"{owner}\""
  | duplicateFieldName name owner => s!"Duplicate field name \"{name}\" in \"{owner}\""
  | duplicateElementName name owner =>
    s!"Duplicate enum element name \"{name}\" in enum \"{owner}\""
  | duplicateElementId id owner => s!"Duplicate enum element id ({id}) in enum \"{owner}\""
  | elementIdsExhausted owner => s!"Enum element ids exhausted in enum \"{owner}\""
  | duplicateFunction name owner => s!"Duplicate function name \"{name}\" in \"{owner}\""
  | outOfRange type value => s!"Value outside range of type {type}: {value}"
  | precisionLoss value => s!"Value exceeds precision of double: {value}"
  | nullNotPermitted type => s!"null not permitted for type {type}"
  | illegalValue type value => s!"Illegal value for type {type}: {value}"
  | notAService name found => s!"Object \"{name}\" is not a service: {found}"
  | unknownService name => s!"Service \"{name}\" not defined"

end IdlGen
