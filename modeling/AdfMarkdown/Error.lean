import AdfMarkdown.Json.Writer
import AdfMarkdown.UnknownName

/-! # Errors

Every error has a class, a code that programs can test, a message for people and a context. A
code is one of a fixed set or any text.
-/

namespace AdfMarkdown

inductive ErrorCode where
  | documentError
  deriving DecidableEq, Repr

namespace ErrorCode

def all : List ErrorCode := [documentError]

def text : ErrorCode → String
  | documentError => "DOCUMENT_ERROR"

def ofText (s : String) : Except UnknownName ErrorCode :=
  match all.find? (·.text = s) with
  | some code => .ok code
  | none => .error ⟨s, "ErrorCode"⟩

/-- The code as diagnostics show it. -/
def shown (code : ErrorCode) : String :=
  "<ErrorCode." ++ code.text ++ ": " ++ Text.quoted code.text ++ ">"

end ErrorCode

/-- A fixed code or a text. -/
inductive ErrorLabel where
  | fixed (code : ErrorCode)
  | custom (text : String)
  deriving DecidableEq, Repr

namespace ErrorLabel

def text : ErrorLabel → String
  | fixed code => code.text
  | custom text => text

def shown : ErrorLabel → String
  | fixed code => code.shown
  | custom text => Text.quoted text

end ErrorLabel

inductive ErrorClass where
  | general
  | document
  deriving DecidableEq, Repr

def ErrorClass.name : ErrorClass → String
  | general => "AdfifyError"
  | document => "AdfifyDocumentError"

/-- An error; the cause is what it wraps. -/
structure Error where
  errorClass : ErrorClass
  label : ErrorLabel
  message : String
  context : Fields
  cause : Option String
  deriving Repr

namespace Error

/-- An error about a document. Its code is fixed. -/
def document (message : String) (context : Fields) (cause : Option String) : Error :=
  ⟨.document, .fixed .documentError, message, context, cause⟩

/-- The error as diagnostics show it, without an empty context. -/
def shown (e : Error) : String :=
  e.errorClass.name ++ "(code=" ++ e.label.shown ++ ", message=" ++ Text.quoted e.message ++
    (if e.context.isEmpty then "" else ", context=" ++ (Json.object e.context).shown) ++ ")"

end Error

end AdfMarkdown
