import AdfMarkdown.Json.Writer
import AdfMarkdown.Text.Case

/-! # Log levels

A level is a number. Some numbers have names, two of them a second one.
-/

namespace AdfMarkdown.Log

/-- The names of levels. The first name of a number is the one that is written. -/
def namedLevels : List (String × Int) :=
  [("CRITICAL", 50), ("ERROR", 40), ("WARNING", 30), ("INFO", 20), ("DEBUG", 10), ("NOTSET", 0),
    ("FATAL", 50), ("WARN", 30)]

def warningLevel : Int := 30

def debugLevel : Int := 10

def levelName (level : Int) : String :=
  match namedLevels.find? (·.2 = level) with
  | some (name, _) => name
  | none => "Level " ++ toString level

inductive LevelError where
  | unknown (name : String)
  | notLevel (shown : String)
  deriving DecidableEq, Repr

def LevelError.message : LevelError → String
  | unknown name => "Unknown level: " ++ Text.quoted name
  | notLevel shown => "Level not an integer or a valid string: " ++ shown

/-- The level of a name or number. Names are in upper case. -/
def levelOf : Json → Except LevelError Int
  | .text name => match namedLevels.lookup name with
    | some level => .ok level
    | none => .error (.unknown name)
  | v => match v.asNumber with
    | .int n => .ok n
    | v => .error (.notLevel v.shown)

/-- The level of a name in any case, or of a number. -/
def levelOfAnyCase : Json → Except LevelError Int
  | .text name =>
    let name := String.ofList (Text.upper name.toList)
    match namedLevels.lookup name with
    | some level => .ok level
    | none => .error (.unknown ("Level " ++ name))
  | v => levelOf v

end AdfMarkdown.Log
