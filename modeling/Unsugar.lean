import Unsugar.Builtin
import Unsugar.Command.Arguments
import Unsugar.Command.Options
import Unsugar.Command.Run
import Unsugar.Decimal.Digits
import Unsugar.Decimal.Round
import Unsugar.Diagnostic.Basic
import Unsugar.Diagnostic.Excerpt
import Unsugar.Event
import Unsugar.Json.Basic
import Unsugar.Json.Decode
import Unsugar.Json.Printer
import Unsugar.Json.Reader
import Unsugar.Json.Token
import Unsugar.Layout.Doc
import Unsugar.Literal.Basic
import Unsugar.Literal.Table
import Unsugar.Lowering.Basic
import Unsugar.Lowering.Context
import Unsugar.Lowering.Fold
import Unsugar.Lowering.Shape
import Unsugar.Main
import Unsugar.Outline
import Unsugar.Program
import Unsugar.Program.Codec
import Unsugar.Scope
import Unsugar.Source.File
import Unsugar.Source.Span
import Unsugar.Syntax.Codec
import Unsugar.Syntax.Node
import Unsugar.Term.Basic
import Unsugar.Term.Codec
import Unsugar.Term.Display
import Unsugar.Term.Free
import Unsugar.Text.CharSet
import Unsugar.Text.Cluster
import Unsugar.Text.Columns
import Unsugar.Text.ControlSequence
import Unsugar.Text.DisplayWidth
import Unsugar.Text.GraphemeExtend
import Unsugar.Text.Quoted
import Unsugar.Text.Unprintable
import Unsugar.Timings
import Unsugar.Proofs.Context
import Unsugar.Proofs.Run
import Unsugar.Proofs.Preservation
import Unsugar.Proofs.Occurrence
import Unsugar.Proofs.Scoping
import Unsugar.Proofs.NameResolution
import Unsugar.Proofs.Continuation
import Unsugar.Proofs.Literals
import Unsugar.Proofs.Session
import Unsugar.Proofs.Isolation
import Unsugar.Proofs.Json.Reading
import Unsugar.Proofs.Renaming
import Unsugar.Proofs.ProgramText
import Unsugar.Proofs.Shift
import Unsugar.Proofs.Lookup
import Unsugar.Proofs.Weakening
import Unsugar.Proofs.Prelude
import Unsugar.Proofs.Irrelevance
import Unsugar.Proofs.TreeText
import Unsugar.Proofs.Observation
import Unsugar.Proofs.Erasure
import Unsugar.Proofs.Accounting
import Unsugar.Proofs.Path
import Unsugar.Proofs.Blame
import Unsugar.Proofs.Extent
import Unsugar.Proofs.Definition
import Unsugar.Proofs.LiteralOrder
import Unsugar.Proofs.Blanks
import Unsugar.Proofs.TermText
import Unsugar.Proofs.FreeIndex
import Unsugar.Proofs.BlockItems
