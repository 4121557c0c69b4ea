import AdfMarkdown.Json.Basic
import AdfMarkdown.Number.Shortest
import AdfMarkdown.Text.Quoted
import AdfMarkdown.Text.Lines

/-! # JSON texts

Writing a value on one line, or indented by two blanks a level. Only quotes, backslashes and
control characters are escaped.
-/

namespace AdfMarkdown.Json

def escapeChar (c : Char) : List Char :=
  match c with
  | '"' => ['\\', '"']
  | '\\' => ['\\', '\\']
  | '\n' => ['\\', 'n']
  | '\r' => ['\\', 'r']
  | '\t' => ['\\', 't']
  | '\x08' => ['\\', 'b']
  | '\x0c' => ['\\', 'f']
  | c => if c.toNat < 32 then '\\' :: 'u' :: Text.hexDigits 4 c.toNat else [c]

def writeText (s : String) : String :=
  String.ofList ('"' :: (s.toList.flatMap escapeChar ++ ['"']))

/-- A binary number in its shortest form; the words for what is not finite. -/
def writeFloat : Binary64 → String
  | .nan => "NaN"
  | .infinity s => if s then "-Infinity" else "Infinity"
  | x => x.text

mutual

/-- The value on one line, with a blank after each comma and colon. -/
def write : Json → String
  | null => "null"
  | bool b => if b then "true" else "false"
  | int n => toString n
  | float x => writeFloat x
  | text s => writeText s
  | array items => "[" ++ Text.join ", " (writeItems items) ++ "]"
  | object fields => "\x7b" ++ Text.join ", " (writeFields fields) ++ "\x7d"

def writeItems : List Json → List String
  | [] => []
  | v :: rest => write v :: writeItems rest

def writeFields : List (String × Json) → List String
  | [] => []
  | (k, v) :: rest => (writeText k ++ ": " ++ write v) :: writeFields rest

end

/-- The parts of a list or object, each on a line of its own, one level deeper. -/
def writeBlock (start stop : String) (level : Nat) (parts : List String) : String :=
  if parts.isEmpty then start ++ stop
  else
    let indent := "\n" ++ Text.times "  " (level + 1)
    start ++ indent ++ Text.join ("," ++ indent) parts ++ "\n" ++ Text.times "  " level ++ stop

mutual

/-- The value over several lines, from a level of indentation on. -/
def writeIndentedAt (level : Nat) : Json → String
  | array items => writeBlock "[" "]" level (writeIndentedItems (level + 1) items)
  | object fields => writeBlock "\x7b" "\x7d" level (writeIndentedFields (level + 1) fields)
  | v => write v

def writeIndentedItems (level : Nat) : List Json → List String
  | [] => []
  | v :: rest => writeIndentedAt level v :: writeIndentedItems level rest

def writeIndentedFields (level : Nat) : List (String × Json) → List String
  | [] => []
  | (k, v) :: rest =>
    (writeText k ++ ": " ++ writeIndentedAt level v) :: writeIndentedFields level rest

end

def writeIndented (v : Json) : String := writeIndentedAt 0 v

mutual

/-- The value as diagnostics show it: quoted texts, and words for null and the truth values. -/
def shown : Json → String
  | null => "None"
  | bool b => if b then "True" else "False"
  | int n => toString n
  | float x => x.text
  | text s => Text.quoted s
  | array items => "[" ++ Text.join ", " (shownItems items) ++ "]"
  | object fields => "\x7b" ++ Text.join ", " (shownFields fields) ++ "\x7d"

def shownItems : List Json → List String
  | [] => []
  | v :: rest => shown v :: shownItems rest

def shownFields : List (String × Json) → List String
  | [] => []
  | (k, v) :: rest => (Text.quoted k ++ ": " ++ shown v) :: shownFields rest

end

/-- The value inside a message: a text as it is, all else as diagnostics show it. -/
def inserted : Json → String
  | text s => s
  | v => v.shown

end AdfMarkdown.Json
