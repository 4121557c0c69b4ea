/-! # Extensions

The constructs beyond the basic language that can be switched on.
-/

namespace AdfMarkdown.Markdown

structure Extensions where
  strikethrough : Bool
  table : Bool
  taskLists : Bool
  bareUrls : Bool
  deriving DecidableEq, Repr

end AdfMarkdown.Markdown
