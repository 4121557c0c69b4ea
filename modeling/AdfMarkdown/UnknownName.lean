import AdfMarkdown.Text.Quoted

/-! # Unknown names

A text that should name one of a fixed set of things and does not.
-/

namespace AdfMarkdown

/-- A name that is none of its set. -/
structure UnknownName where
  name : String
  setName : String
  deriving DecidableEq, Repr

def UnknownName.message (e : UnknownName) : String :=
  Text.quoted e.name ++ " is not a valid " ++ e.setName

end AdfMarkdown
