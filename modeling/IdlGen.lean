import IdlGen.CommandLine
import IdlGen.Decimal.Double
import IdlGen.Decimal.Read
import IdlGen.Decimal.Shortest
import IdlGen.Doc
import IdlGen.Files.FileTree
import IdlGen.Files.Path
import IdlGen.Files.SourceRef
import IdlGen.Generate.Backend
import IdlGen.Generate.Error
import IdlGen.Generate.Event
import IdlGen.Generate.Job
import IdlGen.Generate.Output
import IdlGen.Generate.Plan
import IdlGen.Generate.Run
import IdlGen.Generate.TemplateBackend
import IdlGen.Generate.World
import IdlGen.Idl.Declaration
import IdlGen.Idl.Document
import IdlGen.Idl.Field
import IdlGen.Idl.Literal
import IdlGen.Idl.LoadM
import IdlGen.Idl.TypeExpr
import IdlGen.Integer
import IdlGen.Literal.Spelling
import IdlGen.Load
import IdlGen.Main
import IdlGen.Model.Basic
import IdlGen.Model.Error
import IdlGen.Model.Lookup
import IdlGen.Model.ModelSet
import IdlGen.Model.Service
import IdlGen.Naming
import IdlGen.Program
import IdlGen.Proofs.Files.Reading
import IdlGen.Proofs.Files.Writing
import IdlGen.Proofs.Generate.Accounting
import IdlGen.Proofs.Generate.Attempts
import IdlGen.Proofs.Generate.Cascade
import IdlGen.Proofs.Generate.FileNames
import IdlGen.Proofs.Generate.Outputs
import IdlGen.Proofs.Generate.Preparation
import IdlGen.Proofs.Generate.Refusals
import IdlGen.Proofs.Generate.Selection
import IdlGen.Proofs.Idl.Additions
import IdlGen.Proofs.Idl.Declarations
import IdlGen.Proofs.Idl.Faults
import IdlGen.Proofs.Idl.Grammar
import IdlGen.Proofs.Idl.Likeness
import IdlGen.Proofs.Idl.Literals
import IdlGen.Proofs.Idl.Lockstep
import IdlGen.Proofs.Idl.Parallel
import IdlGen.Proofs.Idl.Quiet
import IdlGen.Proofs.Idl.RoundTrip
import IdlGen.Proofs.Idl.TypeNames
import IdlGen.Proofs.Idl.Valid
import IdlGen.Proofs.Idl.Wp
import IdlGen.Proofs.Literal.Integers
import IdlGen.Proofs.Literal.Quoting
import IdlGen.Proofs.Literal.Scalars
import IdlGen.Proofs.Literal.Strings
import IdlGen.Proofs.Load.Anonymous
import IdlGen.Proofs.Load.Asks
import IdlGen.Proofs.Load.Canonical
import IdlGen.Proofs.Load.Coherence
import IdlGen.Proofs.Load.Contract
import IdlGen.Proofs.Load.Cycles
import IdlGen.Proofs.Load.Depth
import IdlGen.Proofs.Load.Includes
import IdlGen.Proofs.Load.Locations
import IdlGen.Proofs.Load.Lockstep
import IdlGen.Proofs.Load.References
import IdlGen.Proofs.Load.Resolution
import IdlGen.Proofs.Load.Session
import IdlGen.Proofs.Load.TypeNames
import IdlGen.Proofs.Load.Valid
import IdlGen.Proofs.Load.Visibility
import IdlGen.Proofs.Load.Visits
import IdlGen.Proofs.Model.Additions
import IdlGen.Proofs.Model.Building
import IdlGen.Proofs.Model.Conflicts
import IdlGen.Proofs.Model.Containers
import IdlGen.Proofs.Model.Growth
import IdlGen.Proofs.Model.Inheritance
import IdlGen.Proofs.Model.Likeness
import IdlGen.Proofs.Model.Names
import IdlGen.Proofs.Model.Order
import IdlGen.Proofs.Model.Registry
import IdlGen.Proofs.Model.Twins
import IdlGen.Proofs.Model.Valid
import IdlGen.Proofs.Model.WellFormed
import IdlGen.Proofs.Naming.Boundaries
import IdlGen.Proofs.Naming.Substitution
import IdlGen.Proofs.Spec.Derivation
import IdlGen.Proofs.Spec.Keyed
import IdlGen.Proofs.Spec.RoundTrip
import IdlGen.Proofs.Text.Case
import IdlGen.Proofs.Token.Comments
import IdlGen.Proofs.Token.Documentation
import IdlGen.Proofs.Token.Layout
import IdlGen.Proofs.Token.Lexing
import IdlGen.Proofs.Token.Locality
import IdlGen.Proofs.Token.Pattern
import IdlGen.Proofs.Token.Reading
import IdlGen.Proofs.Token.Shapes
import IdlGen.Proofs.Tree.Sections
import IdlGen.Proofs.Types.Check
import IdlGen.Proofs.Types.Constants
import IdlGen.Proofs.Types.Container
import IdlGen.Proofs.Types.Distinct
import IdlGen.Proofs.Types.Fields
import IdlGen.Proofs.Types.Inhabits
import IdlGen.Proofs.Types.Inlining
import IdlGen.Proofs.Types.IntegerRange
import IdlGen.Proofs.Types.Likeness
import IdlGen.Proofs.Types.Naming
import IdlGen.Proofs.Types.NormalForm
import IdlGen.Proofs.Types.Numbering
import IdlGen.Proofs.Types.Ownership
import IdlGen.Proofs.Types.Parts
import IdlGen.Proofs.Types.Places
import IdlGen.SourceError
import IdlGen.Spec.Grammar
import IdlGen.Spec.Options
import IdlGen.Template.Basic
import IdlGen.Template.Datum
import IdlGen.Template.Error
import IdlGen.Template.Grammar
import IdlGen.Template.HelperSet
import IdlGen.Template.Piece
import IdlGen.Template.Render
import IdlGen.Template.Spelling
import IdlGen.Text.Affix
import IdlGen.Text.Blank
import IdlGen.Text.Case
import IdlGen.Text.CaseTable
import IdlGen.Text.CodeRange
import IdlGen.Text.Digit
import IdlGen.Text.Escaped
import IdlGen.Text.Markup
import IdlGen.Text.Printable
import IdlGen.Text.Quoted
import IdlGen.Token.Basic
import IdlGen.Token.Lexeme
import IdlGen.Token.Parsed
import IdlGen.Token.Reader
import IdlGen.Token.Shape
import IdlGen.Tree
import IdlGen.Tree.Json
import IdlGen.Types.Basic
import IdlGen.Types.Check
import IdlGen.Types.Enumeration
import IdlGen.Types.Literal
import IdlGen.Types.Stamp
import IdlGen.Types.Value
import IdlGen.View
