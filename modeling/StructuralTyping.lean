import StructuralTyping.Assign
import StructuralTyping.Assigner
import StructuralTyping.Checker.Infer
import StructuralTyping.Checker.Inference
import StructuralTyping.Checker.Keys
import StructuralTyping.Checker.Returns
import StructuralTyping.Checker.Scope
import StructuralTyping.Checker.Session
import StructuralTyping.Checker.Trace
import StructuralTyping.CommandLine
import StructuralTyping.Config
import StructuralTyping.Diagnostic.Basic
import StructuralTyping.Diagnostic.Display
import StructuralTyping.Expr.Basic
import StructuralTyping.Expr.Text
import StructuralTyping.Files
import StructuralTyping.Main
import StructuralTyping.Number.Binary64
import StructuralTyping.Number.Reading
import StructuralTyping.Number.Shortest
import StructuralTyping.Proofs.Assign.Cases
import StructuralTyping.Proofs.Assign.Depth
import StructuralTyping.Proofs.Assign.Rules
import StructuralTyping.Proofs.Assign.Search
import StructuralTyping.Proofs.Assign.Acyclic
import StructuralTyping.Proofs.Assign.Respect
import StructuralTyping.Proofs.Assign.Union
import StructuralTyping.Proofs.Assign.Transitive
import StructuralTyping.Proofs.Assigner
import StructuralTyping.Proofs.Session
import StructuralTyping.Proofs.Overriding
import StructuralTyping.Proofs.Returns
import StructuralTyping.Proofs.Join
import StructuralTyping.Proofs.Identity
import StructuralTyping.Regex
import StructuralTyping.Regex.Error
import StructuralTyping.Regex.Groups
import StructuralTyping.Regex.Opening
import StructuralTyping.Regex.Property
import StructuralTyping.Regex.Reading
import StructuralTyping.Regex.Set
import StructuralTyping.Report
import StructuralTyping.Scenario.Basic
import StructuralTyping.Scenario.Read
import StructuralTyping.Scenario.Run
import StructuralTyping.Source
import StructuralTyping.Text.Base64
import StructuralTyping.Text.ByteText
import StructuralTyping.Text.Grouped
import StructuralTyping.Text.Pieces
import StructuralTyping.Text.Printable
import StructuralTyping.Text.Quoted
import StructuralTyping.Text.Space
import StructuralTyping.Text.Word
import StructuralTyping.Ty.Basic
import StructuralTyping.Ty.Build
import StructuralTyping.Ty.Declare
import StructuralTyping.Ty.Equal
import StructuralTyping.Ty.Identity
import StructuralTyping.Ty.Join
import StructuralTyping.Ty.Members
import StructuralTyping.Ty.Narrow
import StructuralTyping.Ty.Text
import StructuralTyping.TypeSource.Names
import StructuralTyping.TypeSource.Parse
import StructuralTyping.TypeSource.Token
import StructuralTyping.Yaml.Cursor
import StructuralTyping.Yaml.Decoder
import StructuralTyping.Yaml.Decode
import StructuralTyping.Yaml.Encode
import StructuralTyping.Yaml.Fields
import StructuralTyping.Yaml.Node
import StructuralTyping.Yaml.Scalar
import StructuralTyping.Yaml.ScalarText
import StructuralTyping.Yaml.Token
import StructuralTyping.Yaml.TokenQueue
import StructuralTyping.Yaml.Tree
import StructuralTyping.Proofs.Equal.Alike
import StructuralTyping.Proofs.Equal.Layer
import StructuralTyping.Proofs.Equal.Bisimilar
import StructuralTyping.Proofs.Equal.Height
import StructuralTyping.Proofs.Equal.Graph
import StructuralTyping.Proofs.Equal.PartialEquivalence
import StructuralTyping.Proofs.Equal.Erase
import StructuralTyping.Proofs.Declare
import StructuralTyping.Proofs.Yaml.Fields
import StructuralTyping.Proofs.Yaml.Reread
import StructuralTyping.Proofs.Yaml.Marks
import StructuralTyping.Proofs.Yaml.Recoverable
import StructuralTyping.Proofs.Yaml.Written
import StructuralTyping.Proofs.Yaml.RoundTrip
import StructuralTyping.Proofs.Number.Rounding
import StructuralTyping.Proofs.Number.Shortest
import StructuralTyping.Proofs.Number.Numeral
import StructuralTyping.Proofs.Yaml.Numbers
import StructuralTyping.Proofs.TypeSource.Grammar
import StructuralTyping.Proofs.TypeSource.Parsing
import StructuralTyping.Proofs.TypeSource.Quoted
import StructuralTyping.Proofs.TypeSource.Cutting
import StructuralTyping.Proofs.TypeSource.Printing
import StructuralTyping.Proofs.Names
import StructuralTyping.Proofs.Reads
import StructuralTyping.Proofs.Coincidence
import StructuralTyping.Proofs.Parameters
import StructuralTyping.Proofs.Yaml.Expand
import StructuralTyping.Proofs.Yaml.Tags
import StructuralTyping.Proofs.Yaml.Transparent
import StructuralTyping.Proofs.Yaml.Comparison
import StructuralTyping.Proofs.Yaml.DecodeExpanded
import StructuralTyping.Proofs.Assign.UnionTarget
import StructuralTyping.Proofs.Assign.Truthful
import StructuralTyping.Proofs.Assign.Reflexive
import StructuralTyping.Proofs.Unplaced
import StructuralTyping.Proofs.Assign.Positions
import StructuralTyping.Proofs.Positions
import StructuralTyping.Proofs.Yaml.Decoder
import StructuralTyping.Proofs.Yaml.Decoded
import StructuralTyping.Proofs.Yaml.Survives
import StructuralTyping.Proofs.KeywordBranches
import StructuralTyping.Proofs.ReturnTypes
import StructuralTyping.Proofs.Overloads
import StructuralTyping.Proofs.CheckedArguments
import StructuralTyping.Proofs.InferredTypes
import StructuralTyping.Proofs.ObjectCalls
import StructuralTyping.Proofs.Leaves
import StructuralTyping.Proofs.Distinct
import StructuralTyping.Proofs.Canonical
import StructuralTyping.Proofs.Narrowing
import StructuralTyping.Proofs.Members
import StructuralTyping.Proofs.ScenarioCallees
import StructuralTyping.Proofs.TypeSource.Related
import StructuralTyping.Proofs.Yaml.Calls
import StructuralTyping.Proofs.Yaml.Cycles
import StructuralTyping.Proofs.Yaml.Reordered
