import AdfMarkdown.Config
import AdfMarkdown.Document.Basic
import AdfMarkdown.Error

/-! # Catalogue

The names that a program which uses the converter can rely on.
-/

namespace AdfMarkdown.Catalogue

def exports : List String :=
  ["ADFConverter", "AdfifyConfig", "AdfifyDocumentError", "AdfifyError", "ConversionResult",
    "ConversionWarning", "ErrorCode", "GFM_PLUGINS", "Mark", "MarkType", "Node", "NodeType",
    "RenderResult", "SkippedNode", "load_document", "node_from_dict", "to_adf", "to_markdown"]

def formatVersion : Int := 1

def names (xs : List String) : Json := .array (xs.map .text)

/-- Everything that has a fixed name. -/
def json : Json :=
  .object [
    ("node_types", names (NodeKind.all.map NodeKind.name)),
    ("mark_types", names (MarkKind.all.map MarkKind.name)),
    ("gfm_plugins", names defaultPlugins),
    ("error_codes", names (ErrorCode.all.map ErrorCode.text)),
    ("exports", names exports),
    ("unsupported", .text Warning.unsupportedNode),
    ("adf_version", .int formatVersion)]

end AdfMarkdown.Catalogue
