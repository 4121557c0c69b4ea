import AdfMarkdown.Catalogue
import AdfMarkdown.CharacterReference.Basic
import AdfMarkdown.CharacterReference.Names
import AdfMarkdown.Config
import AdfMarkdown.Conversion
import AdfMarkdown.Document.Basic
import AdfMarkdown.Document.Store
import AdfMarkdown.Document.Wire
import AdfMarkdown.Error
import AdfMarkdown.Json.Basic
import AdfMarkdown.Json.Encoding
import AdfMarkdown.Json.Reader
import AdfMarkdown.Json.Grammar
import AdfMarkdown.Json.Writer
import AdfMarkdown.LinkDestination
import AdfMarkdown.Log.Level
import AdfMarkdown.Log.Record
import AdfMarkdown.Log.Registry
import AdfMarkdown.Log.Template
import AdfMarkdown.Log.Value
import AdfMarkdown.Markdown.Address
import AdfMarkdown.Markdown.Block
import AdfMarkdown.Markdown.BlockStart
import AdfMarkdown.Markdown.Cursor
import AdfMarkdown.Markdown.Emphasis
import AdfMarkdown.Markdown.Extension
import AdfMarkdown.Markdown.Html
import AdfMarkdown.Markdown.Inline
import AdfMarkdown.Markdown.LeafBlock
import AdfMarkdown.Markdown.Link
import AdfMarkdown.Markdown.Reader
import AdfMarkdown.Markdown.Scanner
import AdfMarkdown.Markdown.Structure
import AdfMarkdown.Markdown.Table
import AdfMarkdown.Number.Binary64
import AdfMarkdown.Number.Notation
import AdfMarkdown.Number.Shortest
import AdfMarkdown.Number.Text
import AdfMarkdown.Payload
import AdfMarkdown.Proofs.Building
import AdfMarkdown.Proofs.Consolidation
import AdfMarkdown.Proofs.Normalising
import AdfMarkdown.Proofs.Rereading
import AdfMarkdown.Proofs.Schema
import AdfMarkdown.Proofs.Tree
import AdfMarkdown.Rendering.Block
import AdfMarkdown.Rendering.Inline
import AdfMarkdown.Session
import AdfMarkdown.Text.Alnum
import AdfMarkdown.Text.Case
import AdfMarkdown.Text.CodeRange
import AdfMarkdown.Text.Digit
import AdfMarkdown.Text.Lines
import AdfMarkdown.Text.Printable
import AdfMarkdown.Text.Quoted
import AdfMarkdown.Text.Space
import AdfMarkdown.Token.Basic
import AdfMarkdown.Token.Canonical
import AdfMarkdown.Token.Document
import AdfMarkdown.Token.Inline
import AdfMarkdown.UnknownName
import AdfMarkdown.Url
import AdfMarkdown.Warning
import AdfMarkdown.Proofs.Skipping
import AdfMarkdown.Proofs.Renderable
import AdfMarkdown.Proofs.Lossless
import AdfMarkdown.Proofs.Lines
import AdfMarkdown.Proofs.Prose.Basic
import AdfMarkdown.Proofs.Prose.Building
import AdfMarkdown.Proofs.Prose.Printing
import AdfMarkdown.Proofs.Prose.RoundTrip
import AdfMarkdown.Proofs.Reading
import AdfMarkdown.Proofs.Places
import AdfMarkdown.Proofs.Reporting
import AdfMarkdown.Proofs.Agreement
import AdfMarkdown.Proofs.Pruning
import AdfMarkdown.Proofs.JsonText
import AdfMarkdown.Proofs.JsonCompleteness
import AdfMarkdown.Proofs.JsonSoundness
import AdfMarkdown.Proofs.Loading
import AdfMarkdown.Proofs.Numbering
import AdfMarkdown.Proofs.Destinations
import AdfMarkdown.Proofs.Trimming
import AdfMarkdown.Proofs.Prose.Legible
import AdfMarkdown.Proofs.Prose.Pairing
import AdfMarkdown.Proofs.Prose.Literal
import AdfMarkdown.Proofs.Prose.Scanning
import AdfMarkdown.Proofs.Prose.Opening
import AdfMarkdown.Proofs.Prose.Outline
import AdfMarkdown.Proofs.Prose.Container
import AdfMarkdown.Proofs.Prose.Structure
import AdfMarkdown.Proofs.Prose.Tokens
import AdfMarkdown.Proofs.Prose.Links
import AdfMarkdown.Proofs.Prose.Stable
import AdfMarkdown.Proofs.LoggerTree
import AdfMarkdown.Proofs.Configuring
import AdfMarkdown.Proofs.StyledText
import AdfMarkdown.Proofs.Omitting
import AdfMarkdown.Proofs.Accounting
import AdfMarkdown.Proofs.WrittenDestinations
import AdfMarkdown.Proofs.LinkTargets
import AdfMarkdown.Proofs.FirstLink
import AdfMarkdown.Proofs.Composing
import AdfMarkdown.Proofs.ItemLines
import AdfMarkdown.Proofs.Fencing
import AdfMarkdown.Proofs.Quoting
import AdfMarkdown.Proofs.WarningOrder
import AdfMarkdown.Proofs.ReadingOn
import AdfMarkdown.Proofs.HeadingLine
import AdfMarkdown.Proofs.TextOrder
import AdfMarkdown.Proofs.HeadingLevel
import AdfMarkdown.Proofs.Editing
import AdfMarkdown.Proofs.JsonWriting
import AdfMarkdown.Proofs.LogLine
import AdfMarkdown.Proofs.NormalForm
import AdfMarkdown.Token.Shared
import AdfMarkdown.Proofs.SharedTokens
