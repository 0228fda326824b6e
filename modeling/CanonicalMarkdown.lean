import CanonicalMarkdown.Command.Arguments
import CanonicalMarkdown.Command.Run
import CanonicalMarkdown.Document.Builder
import CanonicalMarkdown.Document.Describe
import CanonicalMarkdown.Document.Element
import CanonicalMarkdown.Document.Event
import CanonicalMarkdown.Document.Node
import CanonicalMarkdown.Document.Place
import CanonicalMarkdown.Document.Prose
import CanonicalMarkdown.Document.Segment
import CanonicalMarkdown.Document.Tree
import CanonicalMarkdown.Files.FileSystem
import CanonicalMarkdown.Files.Path
import CanonicalMarkdown.Main
import CanonicalMarkdown.Number.Binary64
import CanonicalMarkdown.Number.Numeral
import CanonicalMarkdown.Output.Layer
import CanonicalMarkdown.Output.Sink
import CanonicalMarkdown.Output.Stack
import CanonicalMarkdown.Output.Writer
import CanonicalMarkdown.Proofs.Document.Family
import CanonicalMarkdown.Proofs.Document.Links
import CanonicalMarkdown.Proofs.Output.Composition
import CanonicalMarkdown.Proofs.Output.Layer
import CanonicalMarkdown.Proofs.Render.Independence
import CanonicalMarkdown.Proofs.Render.Layout
import CanonicalMarkdown.Render.Block
import CanonicalMarkdown.Render.Describe
import CanonicalMarkdown.Render.Error
import CanonicalMarkdown.Render.Formatter
import CanonicalMarkdown.Render.FrontMatter
import CanonicalMarkdown.Render.Inline
import CanonicalMarkdown.Render.Layout
import CanonicalMarkdown.Render.Options
import CanonicalMarkdown.Render.Visit
import CanonicalMarkdown.Render.Walk
import CanonicalMarkdown.Settings.Basic
import CanonicalMarkdown.Settings.Error
import CanonicalMarkdown.Settings.Expansion
import CanonicalMarkdown.Settings.Load
import CanonicalMarkdown.Settings.Schema
import CanonicalMarkdown.Text.Alphanumeric
import CanonicalMarkdown.Text.Blank
import CanonicalMarkdown.Text.Bytes
import CanonicalMarkdown.Text.Invisible
import CanonicalMarkdown.Text.Ranges
import CanonicalMarkdown.Toml.Reader
import CanonicalMarkdown.Toml.Scalar
import CanonicalMarkdown.Toml.Table
import CanonicalMarkdown.Toml.Text
import CanonicalMarkdown.Toml.Value
import CanonicalMarkdown.Yaml.Emission
import CanonicalMarkdown.Yaml.Node
import CanonicalMarkdown.Yaml.Printer
import CanonicalMarkdown.Yaml.Reader
import CanonicalMarkdown.Yaml.Resolution
import CanonicalMarkdown.Yaml.Scalar
import CanonicalMarkdown.Yaml.Style
import CanonicalMarkdown.Yaml.Tag
import CanonicalMarkdown.Yaml.Token
import CanonicalMarkdown.Yaml.Token.Scan
import CanonicalMarkdown.Yaml.Value
import CanonicalMarkdown.Proofs.Document.Traversal
import CanonicalMarkdown.Proofs.Document.Shape
import CanonicalMarkdown.Proofs.Document.Markup
import CanonicalMarkdown.Proofs.Document.Capture
import CanonicalMarkdown.Proofs.Document.Site
import CanonicalMarkdown.Proofs.Document.Translation
import CanonicalMarkdown.Proofs.Document.Item
import CanonicalMarkdown.Proofs.Document.Refinement
import CanonicalMarkdown.Proofs.Document.Position
import CanonicalMarkdown.Proofs.Render.Walk
import CanonicalMarkdown.Proofs.Render.BuiltIn
import CanonicalMarkdown.Proofs.Render.Failure
import CanonicalMarkdown.Proofs.Document.Safety
import CanonicalMarkdown.Proofs.Render.Unsupported
import CanonicalMarkdown.Proofs.Render.Trace
import CanonicalMarkdown.Proofs.Render.Emphasis
import CanonicalMarkdown.Proofs.Render.Outlook
import CanonicalMarkdown.Proofs.Render.Quotation
import CanonicalMarkdown.Proofs.Output.Indent
import CanonicalMarkdown.Proofs.Render.ListItem
import CanonicalMarkdown.Proofs.Document.Arrangement
import CanonicalMarkdown.Proofs.Document.Origin
import CanonicalMarkdown.Proofs.Document.Order
import CanonicalMarkdown.Proofs.Document.Content
import CanonicalMarkdown.Proofs.Render.Calls
import CanonicalMarkdown.Proofs.Render.Tour
import CanonicalMarkdown.Proofs.Render.Ending
import CanonicalMarkdown.Proofs.Output.Comparison
import CanonicalMarkdown.Proofs.Output.Device
import CanonicalMarkdown.Proofs.Render.Juxtaposition
import CanonicalMarkdown.Proofs.Render.Overriding
import CanonicalMarkdown.Proofs.Settings.Resolution
import CanonicalMarkdown.Proofs.Text.Bytes
import CanonicalMarkdown.Proofs.Render.Fence
import CanonicalMarkdown.Proofs.Command.Run
import CanonicalMarkdown.Proofs.Command.Frame
import CanonicalMarkdown.Proofs.Command.Agreement
import CanonicalMarkdown.Proofs.Files.Path
import CanonicalMarkdown.Proofs.Command.Selection
import CanonicalMarkdown.Proofs.Render.FormattedCode
import CanonicalMarkdown.Proofs.Render.CodeSpan
import CanonicalMarkdown.Proofs.Render.LinkTarget
import CanonicalMarkdown.Proofs.Render.InlineContent
import CanonicalMarkdown.Proofs.Render.Heading
import CanonicalMarkdown.Proofs.Render.LooseItem
import CanonicalMarkdown.Proofs.Render.IndentedCode
import CanonicalMarkdown.Proofs.Render.TightText
import CanonicalMarkdown.Proofs.Render.TightList
import CanonicalMarkdown.Proofs.Render.Numbering
import CanonicalMarkdown.Proofs.Document.Widening
import CanonicalMarkdown.Proofs.Output.Entries
import CanonicalMarkdown.Proofs.Render.Styling
import CanonicalMarkdown.Proofs.Render.Credit
import CanonicalMarkdown.Proofs.Render.Escapes
import CanonicalMarkdown.Proofs.Render.Display
import CanonicalMarkdown.Proofs.Output.Margin
import CanonicalMarkdown.Proofs.Output.Retry
import CanonicalMarkdown.Proofs.Settings.Expansion
import CanonicalMarkdown.Proofs.Settings.Entry
import CanonicalMarkdown.Proofs.Document.Nesting
import CanonicalMarkdown.Proofs.Document.Transparency
import CanonicalMarkdown.Proofs.Document.FirstNode
import CanonicalMarkdown.Proofs.Document.Flattening
