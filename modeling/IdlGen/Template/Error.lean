/-!
# Errors of templates

A template is refused before anything is rendered if its text is malformed. Everything else shows
when the template is rendered.
-/

namespace IdlGen

inductive TemplateError where
  | unclosedTag
  | unclosedComment
  | unclosedText
  | badCharacter (c : Char)
  | badEscape
  | badNumber
  | tooDeep
  | malformedExpression
  | malformedTag
  | undefinedParent
  | unknownFilter (name : String)
  | unknownFunction (name : String)
  | notCallable
  | badArguments (name : String)
  | notIterable
deriving DecidableEq, Repr

def TemplateError.message : TemplateError → String
  | unclosedTag => "a tag is not closed"
  | unclosedComment => "a comment is not closed"
  | unclosedText => "a quoted text is not closed"
  | badCharacter c => s!"unexpected character {c}"
  | badEscape => "malformed escape"
  | badNumber => "malformed number"
  | tooDeep => "the template is nested too deeply"
  | malformedExpression => "malformed expression"
  | malformedTag => "unexpected or malformed tag"
  | undefinedParent => "a part of an undefined value is asked for"
  | unknownFilter name => s!"unknown filter {name}"
  | unknownFunction name => s!"unknown function {name}"
  | notCallable => "the value cannot be called"
  | badArguments name => s!"wrong arguments for {name}"
  | notIterable => "the value has no items"

end IdlGen
