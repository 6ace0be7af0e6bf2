import Maxscript.File.Disk
import Maxscript.Main
import Maxscript.Proofs.Application
import Maxscript.Proofs.Convert
import Maxscript.Proofs.Engine.Basic
import Maxscript.Proofs.Engine.Block
import Maxscript.Proofs.Engine.Buffer
import Maxscript.Proofs.Engine.Construct
import Maxscript.Proofs.Engine.Operand
import Maxscript.Proofs.Extent
import Maxscript.Proofs.Extent.Grammar
import Maxscript.Proofs.File.Disk
import Maxscript.Proofs.File.Path
import Maxscript.Proofs.Include.Comments
import Maxscript.Proofs.Include.Directives
import Maxscript.Proofs.Indentation
import Maxscript.Proofs.LineEnds
import Maxscript.Proofs.Naming.Segmentation
import Maxscript.Proofs.Naming.SnakeCase
import Maxscript.Proofs.Naming.Stub
import Maxscript.Proofs.Nesting
import Maxscript.Proofs.Operand.Places
import Maxscript.Proofs.Operand.Reading
import Maxscript.Proofs.Outcome
import Maxscript.Proofs.Parts
import Maxscript.Proofs.Products
import Maxscript.Proofs.Python.Columns
import Maxscript.Proofs.Python.Kept
import Maxscript.Proofs.Python.Layout
import Maxscript.Proofs.Python.Lines
import Maxscript.Proofs.Python.Marks
import Maxscript.Proofs.Reader.Agreement
import Maxscript.Proofs.Reader.Budget
import Maxscript.Proofs.Reader.Built
import Maxscript.Proofs.Reader.Conservation
import Maxscript.Proofs.Reader.Definition
import Maxscript.Proofs.Reader.Locality
import Maxscript.Proofs.Reader.Move
import Maxscript.Proofs.Reader.Newline
import Maxscript.Proofs.Reader.Operand
import Maxscript.Proofs.Reader.Progress
import Maxscript.Proofs.Reader.Splice
import Maxscript.Proofs.Reader.Surroundings
import Maxscript.Proofs.Reader.Texts
import Maxscript.Proofs.Reader.Wrapping
import Maxscript.Proofs.Refusal
import Maxscript.Proofs.Registry
import Maxscript.Proofs.Signature.Parameters
import Maxscript.Proofs.Signature.Reading
import Maxscript.Proofs.Signature.Text
import Maxscript.Proofs.Store.Changes
import Maxscript.Proofs.Store.Lists
import Maxscript.Proofs.Store.Novelty
import Maxscript.Proofs.Struct.Members
import Maxscript.Proofs.Struct.Method
import Maxscript.Proofs.Structured.Attempt
import Maxscript.Proofs.Structured.OneLine
import Maxscript.Proofs.Structured.Program
import Maxscript.Proofs.Structured.Reading
import Maxscript.Proofs.Structured.Writing
import Maxscript.Proofs.Text
import Maxscript.Proofs.Token.BlockComment
import Maxscript.Proofs.Token.Cutting
import Maxscript.Proofs.Token.Front
import Maxscript.Proofs.Token.Hyphens
import Maxscript.Proofs.Token.Idempotence
import Maxscript.Proofs.Token.Lexer
import Maxscript.Proofs.Token.LineComment
import Maxscript.Proofs.Token.Lines
import Maxscript.Proofs.Token.Literal
import Maxscript.Proofs.Token.Printing
import Maxscript.Proofs.Token.Spacing
import Maxscript.Proofs.Token.Unquoted
import Maxscript.Proofs.Tree.Calls
import Maxscript.Proofs.Tree.Density
import Maxscript.Proofs.Tree.Levels
import Maxscript.Proofs.Tree.Numbering
import Maxscript.Proofs.Tree.Ownership
import Maxscript.Proofs.Tree.Placement
import Maxscript.Proofs.Tree.Planting
import Maxscript.Proofs.Unicode.Lowercasing
import Maxscript.Proofs.Writer
