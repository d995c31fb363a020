import ComTypes.Assembly.Basic
import ComTypes.Assembly.Library
import ComTypes.Assembly.Members
import ComTypes.Assembly.Resolve
import ComTypes.Dict
import ComTypes.Documentation
import ComTypes.Fault
import ComTypes.Files.Path
import ComTypes.Files.Tree
import ComTypes.Graph.Basic
import ComTypes.Graph.Chain
import ComTypes.Guid
import ComTypes.Library.Basic
import ComTypes.Library.Decode
import ComTypes.Library.Encode
import ComTypes.Main
import ComTypes.Naming.Display
import ComTypes.Naming.Distinct
import ComTypes.Naming.Iids
import ComTypes.Naming.Overlay
import ComTypes.Primitive
import ComTypes.Proxy.Decode
import ComTypes.Proxy.FormatChar
import ComTypes.Proxy.Image
import ComTypes.Proxy.Procedure
import ComTypes.Proxy.TypeForm
import ComTypes.Proxy.Walk
import ComTypes.Record.FuncDesc
import ComTypes.Record.TypeAttr
import ComTypes.Record.TypeDesc
import ComTypes.Record.VarDesc
import ComTypes.Render.Attributes
import ComTypes.Render.Declaration
import ComTypes.Render.Dialect
import ComTypes.Render.Plan
import ComTypes.Render.Renderer
import ComTypes.Render.Source
import ComTypes.Render.Spelling
import ComTypes.Run.CommandLine
import ComTypes.Run.Config
import ComTypes.Run.Pipeline
import ComTypes.Table
import ComTypes.Text.Blank
import ComTypes.Text.Hex
import ComTypes.Text.Literal
import ComTypes.Text.Replace
import ComTypes.Text.Utf16
import ComTypes.Text.Utf8
import ComTypes.Toml.Blank
import ComTypes.Toml.Document
import ComTypes.Toml.Lexis
import ComTypes.Toml.Moment
import ComTypes.Toml.Number
import ComTypes.Toml.Quote
import ComTypes.Toml.Value
import ComTypes.TypeKind
import ComTypes.Wire.Cursor
import ComTypes.Wire.Encode
import ComTypes.Wire.Listing
import ComTypes.Proofs.Graph.Arena
import ComTypes.Proofs.Graph.WellFormed
import ComTypes.Proofs.Graph.Keeps
import ComTypes.Proofs.Graph.Unfolding
import ComTypes.Proofs.Outcome
import ComTypes.Proofs.Assembly.Advance
import ComTypes.Proofs.Proxy.Stage
import ComTypes.Proofs.Proxy.Walk
import ComTypes.Proofs.Assembly.Order
import ComTypes.Proofs.Proxy.Closing
import ComTypes.Proofs.Proxy.Decode
import ComTypes.Proofs.Assembly.Consistent
import ComTypes.Proofs.Proxy.Retrace
import ComTypes.Proofs.Proxy.Visible
import ComTypes.Proofs.Assembly.Replay
import ComTypes.Proofs.Assembly.Rebuild
import ComTypes.Proofs.Assembly.AddAgain
import ComTypes.Proofs.Text.Utf16
import ComTypes.Proofs.Wire.RoundTrip
import ComTypes.Proofs.Wire.Frame
import ComTypes.Proofs.Record.RoundTrip
import ComTypes.Proofs.Record.Exact
import ComTypes.Proofs.Library.RoundTrip
import ComTypes.Proofs.Library.Written
import ComTypes.Proofs.Library.Extent
import ComTypes.Proofs.Dict
import ComTypes.Proofs.Render.Alike
import ComTypes.Proofs.Render.Stateless
import ComTypes.Proofs.Render.Declarators
import ComTypes.Proofs.Signature.Basic
import ComTypes.Proofs.Signature.Steps
import ComTypes.Proofs.Signature.Library
import ComTypes.Proofs.Signature.Proxy
import ComTypes.Proofs.Signature.SameText
import ComTypes.Proofs.Proxy.AddAgain
import ComTypes.Proofs.Naming.Places
import ComTypes.Proofs.Naming.Transport
import ComTypes.Proofs.Assembly.Resolving
import ComTypes.Proofs.Assembly.Strictness
import ComTypes.Proofs.Assembly.Bases
import ComTypes.Proofs.Proxy.Bases
import ComTypes.Proofs.Proxy.Legible
import ComTypes.Proofs.Proxy.ProcedureOrder
import ComTypes.Proofs.Proxy.Draws
import ComTypes.Proofs.Assembly.OwnNode
import ComTypes.Proofs.Proxy.SimpleReferences
import ComTypes.Proofs.Proxy.Frame
import ComTypes.Proofs.Graph.Chain
import ComTypes.Proofs.Render.Forward
import ComTypes.Proofs.Render.Outline
import ComTypes.Proofs.Render.HiddenComments
import ComTypes.Proofs.Render.BaseOrder
import ComTypes.Proofs.Render.Closure
import ComTypes.Proofs.Render.Comments
import ComTypes.Proofs.Naming.Fresh
import ComTypes.Proofs.Naming.Display
import ComTypes.Proofs.Naming.Distinct
import ComTypes.Proofs.Assembly.Members
import ComTypes.Proofs.Assembly.Changes
import ComTypes.Proofs.Assembly.InUse
import ComTypes.Proofs.Naming.Positions
import ComTypes.Proofs.Assembly.Underway
import ComTypes.Proofs.Assembly.Descriptors
import ComTypes.Proofs.Text.Literal
import ComTypes.Proofs.Text.Registry
import ComTypes.Proofs.Naming.Precedence
import ComTypes.Proofs.Proxy.Extent
import ComTypes.Proofs.Proxy.Tally
import ComTypes.Proofs.Proxy.Calls
import ComTypes.Proofs.Proxy.Orderly
import ComTypes.Proofs.Graph.Search
import ComTypes.Proofs.Wire.Text
import ComTypes.Proofs.Wire.Bounds
import ComTypes.Proofs.Library.Bounds
