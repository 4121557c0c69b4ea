import AdfMarkdown.Json.Basic

/-! # Logged values

What a caller adds to a record may hold objects that JSON has no form for. Such an object is written
as its text, wherever it stands.
-/

namespace AdfMarkdown.Log

/-- A value in an extra field: one of JSON, but for objects of other kinds in it. -/
inductive Value where
  | null
  | bool (value : Bool)
  | int (value : Int)
  | float (value : Binary64)
  | text (value : String)
  | array (items : List Value)
  | object (fields : List (String × Value))
  | other (text : String)
  deriving Repr, Inhabited

namespace Value

mutual

def toJson : Value → Json
  | null => .null
  | bool b => .bool b
  | int n => .int n
  | float x => .float x
  | text s => .text s
  | array items => .array (itemsToJson items)
  | object fields => .object (fieldsToJson fields)
  | other s => .text s

def itemsToJson : List Value → List Json
  | [] => []
  | v :: rest => toJson v :: itemsToJson rest

def fieldsToJson : List (String × Value) → Fields
  | [] => []
  | (k, v) :: rest => (k, toJson v) :: fieldsToJson rest

end

end Value

end AdfMarkdown.Log
