import AdfMarkdown.Config
import AdfMarkdown.Document.Wire
import AdfMarkdown.Json.Writer
import AdfMarkdown.Markdown.Reader
import AdfMarkdown.Rendering.Block
import AdfMarkdown.Token.Canonical
import AdfMarkdown.Token.Document

/-! # Conversions

Markdown to a document and back. A conversion from Markdown never fails; what has no node is
left out with a warning.
-/

namespace AdfMarkdown

/-- A document with the warnings about what it leaves out. -/
structure Conversion where
  document : Node
  warnings : List Warning

namespace Conversion

/-- The document of canonical tokens. -/
def ofTokens (tokens : List Token) : Conversion :=
  ⟨Node.ofTokens tokens, (SkippedNames.ofTokens tokens).warnings⟩

theorem warnings_ofTokens (tokens : List Token) :
    (ofTokens tokens).warnings = (SkippedNames.ofTokens tokens).names.map Warning.skipped := rfl

def tokens (parser : Markdown.Parser) (markdown : String) : List Token :=
  Token.canonicalList (LinkDestination.table markdown) (parser markdown)

def ofMarkdown (parser : Markdown.Parser) (markdown : String) : Conversion :=
  ofTokens (tokens parser markdown)

def json (c : Conversion) : Json := c.document.toJson

def dumpPart (title : String) (v : Json) : String := title ++ " " ++ v.writeIndented ++ "\n"

/-- What the options ask to be dumped while a text is converted. -/
def dump (config : Config) (parser : Markdown.Parser) (markdown : String) : String :=
  let tokens := tokens parser markdown
  (if config.dumpTokens then
    dumpPart "[adfify] Normalized AST:" (.array (Token.listToJson tokens)) else "") ++
  (if config.dumpDocument then
    dumpPart "[adfify] ADF document:" (ofTokens tokens).json else "")

end Conversion

/-- A text after a conversion to a document and back. -/
def roundTrip (parser : Markdown.Parser) (markdown : String) : Except RenderError Rendering :=
  Rendering.ofJson (Conversion.ofMarkdown parser markdown).json

end AdfMarkdown
