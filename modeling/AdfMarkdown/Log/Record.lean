import AdfMarkdown.Log.Level

/-! # Log records

A record becomes one line of JSON. Its extra fields are put over the fixed ones; what is known
about an exception has the last word.
-/

namespace AdfMarkdown.Log

structure Record where
  level : Int
  logger : String
  message : String
  extra : Fields
  exception : Option String
  stack : Option String
  deriving Repr

def exceptionText (className text : String) : String :=
  if text = "" then className else className ++ ": " ++ text

namespace Record

def putText (key : String) (text : Option String) (fields : Fields) : Fields :=
  match text with
  | some s => Fields.put key (.text s) fields
  | none => fields

def fixedFields (time : String) (r : Record) : Fields :=
  [("ts", .text time), ("level", .text (levelName r.level)), ("logger", .text r.logger),
    ("message", .text r.message)]

/-- The fields of the line. -/
def entry (time : String) (r : Record) : Fields :=
  putText "stack_info" (r.stack.filter (· ≠ ""))
    (putText "exception" r.exception (Fields.update (r.fixedFields time) r.extra))

def line (time : String) (r : Record) : String := (Json.object (r.entry time)).write

end Record

end AdfMarkdown.Log
