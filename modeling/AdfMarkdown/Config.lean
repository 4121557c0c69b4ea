import AdfMarkdown.Json.Basic
import AdfMarkdown.Markdown.Reader
import AdfMarkdown.Text.Lines
import AdfMarkdown.Warning

/-! # Configuration

The extensions of Markdown that are switched on, by name, and what is dumped on the way. The four
default ones have a parser here. The other known names are accepted as well, and a text then gives
tokens of further types: blocks of these types are reported as skipped, and within a line they stand
for what is inside them. No parser that gives such tokens is defined here.
-/

namespace AdfMarkdown

def defaultPlugins : List String := ["strikethrough", "table", "task_lists", "url"]

def knownPlugins : List String :=
  defaultPlugins ++ ["footnotes", "mark", "insert", "superscript", "subscript", "abbr", "def_list",
    "spoiler", "math"]

/-- The default extensions that are among some names. -/
def Markdown.Extensions.ofNames (names : List String) : Markdown.Extensions :=
  ⟨names.contains "strikethrough", names.contains "table", names.contains "task_lists",
    names.contains "url"⟩

/-- The parser with all default extensions. -/
def Markdown.Parser.default : Markdown.Parser := Markdown.read (.ofNames defaultPlugins)

structure Config where
  plugins : List String
  dumpTokens : Bool
  dumpDocument : Bool
  deriving DecidableEq, Repr

inductive ConfigError where
  | notIterable (kindName : String)
  | notHashable (kindName : String)
  | notText (kindName : String)
  | unknownPlugins (names : List String)
  deriving DecidableEq, Repr

def ConfigError.message : ConfigError → String
  | notIterable kindName => "'" ++ kindName ++ "' object is not iterable"
  | notHashable kindName => "unhashable type: '" ++ kindName ++ "'"
  | notText kindName => "sequence item 0: expected str instance, " ++ kindName ++ " found"
  | unknownPlugins names => "unknown mistune plugins: " ++ Text.join ", " names

namespace Config

def default : Config := ⟨defaultPlugins, false, false⟩

/-- What a value gives one after the other: a list its items, a text its characters, an object
its names. -/
def iterated : Json → Except ConfigError (List Json)
  | .array items => .ok items
  | .text s => .ok (s.toList.map fun c => .text (String.singleton c))
  | .object fields => .ok (fields.map fun f => .text f.1)
  | v => .error (.notIterable v.kindName)

/-- A list or an object, which cannot be a member of a set. -/
def isContainer : Json → Bool
  | .array _ | .object _ => true
  | _ => false

def pluginNames (items : List Json) : Except ConfigError (List String) :=
  match items.find? isContainer, items.find? (·.text?.isNone) with
  | some v, _ => .error (.notHashable v.kindName)
  | none, some v => .error (.notText v.kindName)
  | none, none => .ok (items.filterMap Json.text?)

def unknownNames (names : List String) : List String :=
  (SkippedNames.ofList (names.filter fun n => !knownPlugins.contains n)).names

/-- The options with the given extensions, all of which have to be known. -/
def ofPlugins (plugins : Json) (dumpTokens dumpDocument : Bool) : Except ConfigError Config := do
  let names ← pluginNames (← iterated plugins)
  if (unknownNames names).isEmpty then return ⟨names, dumpTokens, dumpDocument⟩
  else throw (.unknownPlugins (unknownNames names))

/-- The parser with the extensions of the options, if all of these are default ones. -/
def parser? (config : Config) : Option Markdown.Parser :=
  if ∀ name ∈ config.plugins, name ∈ defaultPlugins then
    some (Markdown.read (.ofNames config.plugins))
  else none

theorem parser?_default : default.parser? = some .default := rfl

theorem eq_read_of_parser? {config : Config} {parser : Markdown.Parser}
    (h : config.parser? = some parser) : parser = Markdown.read (.ofNames config.plugins) := by
  rw [parser?] at h
  split at h
  · exact (Option.some.inj h).symm
  · cases h

end Config

end AdfMarkdown
