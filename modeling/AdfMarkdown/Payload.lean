import AdfMarkdown.Error
import AdfMarkdown.Json.Encoding

/-! # Payloads

Reading a document from a JSON payload. Only the root is looked at: it has to be an object, and
null stands for the empty document.
-/

namespace AdfMarkdown

/-- What a document is read from. A value that is neither text nor bytes is refused. -/
inductive Payload where
  | text (s : String)
  | bytes (b : List UInt8)
  | value (v : Json)

inductive LoadError where
  | malformed (fault : Json.Fault) (position : Nat)
  | undecodable (position : Nat)
  | notObject (kindName : String)
  | longInteger (digits : Nat)
  | notText (kindName : String)
  deriving DecidableEq, Repr

namespace LoadError

def message : LoadError → String
  | malformed fault _ => "ADF payload is not valid JSON: " ++ fault.message
  | undecodable _ => "ADF payload is not valid UTF-8"
  | notObject _ => "ADF payload must be a JSON object"
  | longInteger digits =>
    "Exceeds the limit (" ++ toString Json.maxDigits ++
      " digits) for integer string conversion: value has " ++ toString digits ++
      " digits; use sys.set_int_max_str_digits() to increase the limit"
  | notText kindName => "the JSON object must be str, bytes or bytearray, not " ++ kindName

/-- The context of the error: where reading stopped, or the kind of the root. -/
def context : LoadError → Fields
  | malformed _ position | undecodable position => [("position", .int position)]
  | notObject kindName => [("root_type", .text kindName)]
  | longInteger _ | notText _ => []

/-- The class of the error below, where reading itself fails. -/
def cause? : LoadError → Option String
  | malformed .. => some "JSONDecodeError"
  | undecodable _ => some "UnicodeDecodeError"
  | notObject _ | longInteger _ | notText _ => none

/-- The error as one about the document, unless it is one of another class. -/
def toError? (e : LoadError) : Option Error :=
  match e with
  | malformed .. | undecodable _ | notObject _ => some (.document e.message e.context e.cause?)
  | longInteger _ | notText _ => none

def ofReadError : Json.ReadError → LoadError
  | .malformed fault position => malformed fault position
  | .longInteger digits => longInteger digits

end LoadError

def emptyDocument : Fields :=
  [("type", .text "doc"), ("version", .int 1), ("content", .array [])]

def documentFields : Json → Except LoadError Fields
  | .object fields => .ok fields
  | .null => .ok emptyDocument
  | v => .error (.notObject v.kindName)

namespace Payload

def read : Payload → Except LoadError Json
  | text s => (Json.read s).mapError .ofReadError
  | bytes b => match Json.decode b with
    | .ok s => (Json.readChars s).mapError .ofReadError
    | .error position => .error (.undecodable position)
  | value v => .error (.notText v.kindName)

def load (p : Payload) : Except LoadError Fields := p.read.bind documentFields

end Payload

end AdfMarkdown
