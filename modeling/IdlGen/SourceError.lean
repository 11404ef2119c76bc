import IdlGen.Literal.Spelling
import IdlGen.Model.Error
import IdlGen.Text.Quoted
import IdlGen.Token.Basic

/-!
# Errors in source files

An error names the file it belongs to and, unless the file could not be read at all, the place in
it. The cause is either a fault of the grammar or an error of the model.
-/

namespace IdlGen

/-- Why a file could not be read, written or created. -/
inductive FileError where
  | notFound
  | alreadyExists
  | notADirectory
  | isADirectory
  | notText
  | badName
  | unspecified (what : String)
deriving DecidableEq, Repr

def FileError.message : FileError → String
  | notFound => "No such file or directory (os error 2)"
  | alreadyExists => "File exists (os error 17)"
  | notADirectory => "Not a directory (os error 20)"
  | isADirectory => "Is a directory (os error 21)"
  | notText => "stream did not contain valid UTF-8"
  | badName => "file name contained an unexpected NUL byte"
  | unspecified what => s!"no {what} specified"

/-- What the grammar asks for at some place. -/
inductive Expected where
  | text (content : String)
  | identifier | name | type | fieldId | integer | includePath | generatorName | key
deriving DecidableEq, Repr

def Expected.message : Expected → String
  | .text content => Text.quote content
  | identifier => "identifier"
  | name => "name"
  | type => "type"
  | fieldId => "field id"
  | integer => "integer"
  | includePath => "include path"
  | generatorName => "generator name"
  | key => "key"

/-- A fault of the grammar. -/
inductive ParseFault where
  | unlexable (text : String)
  | spelling (cause : SpellingError)
  | malformedDouble (text : String)
  | expected (what : Expected) (found : String)
  | unexpectedEnd
  | unexpectedToken (text : String)
  | misplacedVoid
  | selfReference (keyword name : String)
  | unknownType (name : String)
  | unknownConstant (name : String)
  | notAConstant (name kind : String)
  | onewayResult (function : String)
  | thrownNonException (type : String)
  | badIncludePath (path : String)
deriving DecidableEq, Repr

def ParseFault.message : ParseFault → String
  | unlexable text => s!"Syntax error: {Text.quote text}"
  | spelling cause => cause.message
  | malformedDouble text => s!"Invalid double literal {Text.quote text}"
  | expected what found => s!"Expected {what.message} but found {Text.quote found}"
  | unexpectedEnd => "Unexpected end of file"
  | unexpectedToken text => s!"Unexpected token {Text.quote text}"
  | misplacedVoid => "void is only allowed as a function return type"
  | selfReference keyword name => s!"{keyword} {Text.quote name} cannot reference itself"
  | unknownType name => s!"Unknown type {Text.quote name}"
  | unknownConstant name => s!"Unknown constant {Text.quote name}"
  | notAConstant name kind =>
    s!"{Text.quote name} names a {kind}, not a constant or enum element"
  | onewayResult function => s!"Oneway function {Text.quote function} must return void"
  | thrownNonException type =>
    s!"Type {Text.quote type} in throws clause is not an exception"
  | badIncludePath path => s!"Invalid include path {Text.quote path}"

inductive SourceError where
  | unreadable (file : String) (cause : FileError)
  | fetch (url : String)
  | parse (file : String) (pos : Position) (cause : ParseFault)
  | model (file : String) (pos : Position) (cause : ModelError)
deriving DecidableEq, Repr

namespace SourceError

/-- The file or address the error belongs to. -/
def file : SourceError → String
  | unreadable file _ => file
  | fetch url => url
  | parse file _ _ => file
  | model file _ _ => file

def message : SourceError → String
  | unreadable file cause => s!"I/O error reading {file}: {cause.message}"
  | fetch url => s!"Failed to fetch {url}"
  | parse file pos cause =>
    s!"{file}: parse error at line {pos.line}, column {pos.column}: {cause.message}"
  | model file pos cause =>
    s!"{file}: error at line {pos.line}, column {pos.column}: {cause.message}"

end SourceError

end IdlGen
