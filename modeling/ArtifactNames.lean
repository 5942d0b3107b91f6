import ArtifactNames.Text.CharClass
import ArtifactNames.Text.Utf8
import ArtifactNames.Text.Printable
import ArtifactNames.Text.Literal
import ArtifactNames.Source.Span
import ArtifactNames.Number.Binary64
import ArtifactNames.Number.Shortest
import ArtifactNames.Source.Input
import ArtifactNames.Syntax.Token
import ArtifactNames.Syntax.Lexer
import ArtifactNames.Syntax.Node
import ArtifactNames.Syntax.Parser
import ArtifactNames.Syntax.Lines
import ArtifactNames.Syntax.Compile
import ArtifactNames.Name.Basic
import ArtifactNames.Name.Error
import ArtifactNames.Name.Build
import ArtifactNames.Name.Parse
import ArtifactNames.Storage.Allocator
import ArtifactNames.Storage.OwnedVec
import ArtifactNames.Storage.Value
import ArtifactNames.Storage.Session
import ArtifactNames.Proofs.Text.Scalar
import ArtifactNames.Proofs.Syntax.Scan
import ArtifactNames.Proofs.Name.Representable
import ArtifactNames.Proofs.Name.Render
import ArtifactNames.Proofs.Syntax.ReadLayout
import ArtifactNames.Proofs.Name.BuildTree
import ArtifactNames.Proofs.Name.RoundTrip
import ArtifactNames.Proofs.Syntax.Grammar
import ArtifactNames.Proofs.Syntax.ReadSound
import ArtifactNames.Proofs.Name.BuildSound
import ArtifactNames.Proofs.Name.ParseSound
import ArtifactNames.Proofs.Syntax.Frame
import ArtifactNames.Proofs.Name.WalkSteps
import ArtifactNames.Proofs.Name.Release
import ArtifactNames.Proofs.Name.Refusal
import ArtifactNames.Proofs.Text.Boundary
import ArtifactNames.Proofs.Syntax.Gap
import ArtifactNames.Proofs.Name.Layout
import ArtifactNames.Proofs.Name.Order
import ArtifactNames.Proofs.Syntax.Stall
import ArtifactNames.Proofs.Syntax.NameStall
import ArtifactNames.Proofs.Syntax.Cut
import ArtifactNames.Proofs.Storage.Reserve
import ArtifactNames.Proofs.Name.Requests
import ArtifactNames.Proofs.Name.StringValue
import ArtifactNames.Proofs.Syntax.Rejection
import ArtifactNames.Proofs.Syntax.LineCount
import ArtifactNames.Proofs.Name.Position
import ArtifactNames.Proofs.Name.SourceBuffer
import ArtifactNames.Proofs.Name.ViablePrefix
import ArtifactNames.Proofs.Storage.Calls
import ArtifactNames.Proofs.Name.Stack
import ArtifactNames.Proofs.Name.Nesting
import ArtifactNames.Proofs.Name.InvalidText
import ArtifactNames.Proofs.Name.Shape
import ArtifactNames.Proofs.Name.Malformed
import ArtifactNames.Proofs.Text.EscapedReading
