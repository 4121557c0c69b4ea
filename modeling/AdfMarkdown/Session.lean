import AdfMarkdown.Conversion
import AdfMarkdown.Log.Record
import AdfMarkdown.Payload

/-! # Sessions

A run of requests to one converter. Every conversion that succeeds is counted, timed and logged;
what fails leaves no trace.
-/

namespace AdfMarkdown

inductive Direction where
  | toDocument
  | toMarkdown
  deriving DecidableEq, Repr

def Direction.name : Direction → String
  | toDocument => "to_adf"
  | toMarkdown => "to_markdown"

inductive Metric where
  | increment (name : String) (value : Nat) (direction : Direction)
  | timing (name : String) (elapsed : Binary64) (direction : Direction)
  deriving DecidableEq, Repr

namespace Metric

def conversion (direction : Direction) : Metric :=
  increment "adfify.conversions_total" 1 direction

def duration (direction : Direction) (elapsed : Binary64) : Metric :=
  timing "adfify.conversion_duration_ms" elapsed direction

def warnings (direction : Direction) (count : Nat) : Metric :=
  increment "adfify.conversion_warnings_total" count direction

end Metric

inductive Request where
  | toDocument (markdown : String)
  | toMarkdown (document : Json)
  | load (payload : Payload)
  | renderLast
  | setLevel (level : Json)

inductive Response where
  | document (json : Json) (warnings : List Warning)
  | markdown (text : String) (warnings : List Warning)
  | loaded (document : Json)
  | levelSet

inductive RequestError where
  | render (e : RenderError)
  | load (e : LoadError)
  | level (e : Log.LevelError)

/-- The outcome of a request with the measurements and log records made on the way. -/
structure Report where
  outcome : Except RequestError Response
  metrics : List Metric
  records : List Log.Record

/-- The parser of the converter, the level of its logger, and the last document. -/
structure Session where
  parser : Markdown.Parser
  level : Int
  last : Json

namespace Session

def loggerName : String := "adfify.converter"

def start (parser : Markdown.Parser) (level : Int) : Session := ⟨parser, level, .null⟩

/-- The level from which on records are heard; without one of its own, the level of warnings. -/
def effectiveLevel (s : Session) : Int := if s.level = 0 then Log.warningLevel else s.level

/-- A record if it is heard. -/
def logged (s : Session) (level : Int) (message : String) (extra : Fields) : List Log.Record :=
  if s.effectiveLevel ≤ level then [⟨level, loggerName, message, extra, none, none⟩] else []

def skippedNames (warnings : List Warning) : List Json :=
  warnings.map fun w => (Fields.get? "node_type" w.context).getD (.text "")

def metricsOf (direction : Direction) (elapsed : Binary64) (warnings : List Warning) :
    List Metric :=
  [.conversion direction, .duration direction elapsed] ++
    if warnings.isEmpty then [] else [.warnings direction warnings.length]

/-- The records of a conversion; `size` tells how large the result is. The time is logged to the
third decimal place. -/
def recordsOf (s : Session) (direction : Direction) (elapsed : Binary64) (warnings : List Warning)
    (size : String × Nat) : List Log.Record :=
  (if warnings.isEmpty then [] else
    s.logged Log.warningLevel "content skipped"
      [("op", .text direction.name), ("skipped", .array (skippedNames warnings))]) ++
  s.logged Log.debugLevel "conversion complete"
    [("op", .text direction.name), ("duration_ms", .float (elapsed.roundPlaces 3)),
      ("warnings", .int warnings.length), (size.1, .int size.2)]

/-- Convert Markdown; the document is the last one then. -/
def toDocument (s : Session) (elapsed : Binary64) (markdown : String) : Session × Report :=
  let c := Conversion.ofMarkdown s.parser markdown
  ({ s with last := c.json },
    ⟨.ok (.document c.json c.warnings), metricsOf .toDocument elapsed c.warnings,
      s.recordsOf .toDocument elapsed c.warnings ("blocks", c.document.content.length)⟩)

def toMarkdown (s : Session) (elapsed : Binary64) (document : Json) : Report :=
  match Rendering.ofJson document with
  | .ok r => ⟨.ok (.markdown r.markdown r.warnings), metricsOf .toMarkdown elapsed r.warnings,
      s.recordsOf .toMarkdown elapsed r.warnings ("chars", r.markdown.length)⟩
  | .error e => ⟨.error (.render e), [], []⟩

/-- Answer a request, which takes some milliseconds. -/
def step (s : Session) (elapsed : Binary64) : Request → Session × Report
  | .toDocument markdown => s.toDocument elapsed markdown
  | .toMarkdown document => (s, s.toMarkdown elapsed document)
  | .renderLast => (s, s.toMarkdown elapsed s.last)
  | .load payload =>
    match payload.load with
    | .ok fields => ({ s with last := .object fields }, ⟨.ok (.loaded (.object fields)), [], []⟩)
    | .error e => (s, ⟨.error (.load e), [], []⟩)
  | .setLevel level =>
    match Log.levelOf level with
    | .ok n => ({ s with level := n }, ⟨.ok .levelSet, [], []⟩)
    | .error e => (s, ⟨.error (.level e), [], []⟩)

def run (s : Session) : List (Binary64 × Request) → List Report
  | [] => []
  | (elapsed, request) :: rest =>
    let (s, report) := s.step elapsed request
    report :: s.run rest

end Session

end AdfMarkdown
