import AdfMarkdown.Log.Level

/-! # Loggers

Loggers form a tree by the dots in their names: each one knows the logger right above it. The first
request with a valid level configures a name: its logger takes the level, gets a handler and no
longer hands records upwards.
-/

namespace AdfMarkdown.Log

/-- A logger, told from all others by its number. Each handler is known by the name it was asked
for, and the logger right above by its name, unless it is the root one. -/
structure Logger where
  id : Nat
  level : Int
  handlers : List String
  propagate : Bool
  parent : Option String
  deriving DecidableEq, Repr

/-- A logger that nobody has configured. -/
def Logger.fresh (id : Nat) (parent : Option String) : Logger := ⟨id, 0, [], true, parent⟩

/-- The loggers that exist below the root one, the root one, and the names configured. -/
structure Registry where
  root : Logger
  loggers : List (String × Logger)
  configured : List String
  deriving Repr

namespace Registry

def initial : Registry := ⟨{ Logger.fresh 0 none with level := warningLevel }, [], []⟩

def rootName : String := "root"

def isRoot (name : String) : Bool := name == "" || name == rootName

def logger? (r : Registry) (name : String) : Option Logger :=
  if isRoot name then some r.root else r.loggers.lookup name

/-- The number of the next logger that comes to be. The root one has zero. -/
def nextId (r : Registry) : Nat := r.loggers.length + 1

/-- The logger of a name; one that does not exist is as nobody has configured it. -/
def logger (r : Registry) (name : String) : Logger := (r.logger? name).getD (.fresh r.nextId none)

/-- The beginnings of a name that end before a dot, longest first. The name is given from its last
character on. The search for the next dot passes over the character right before a dot, so of two
dots side by side only one counts. -/
def beginnings : List Char → List String
  | '.' :: c :: rest => String.ofList (c :: rest).reverse :: beginnings rest
  | _ :: rest => beginnings rest
  | [] => []

def namesAbove (name : String) : List String := beginnings name.toList.reverse

def nearest? (r : Registry) (name : String) : Option String :=
  (namesAbove name).find? fun n => (r.loggers.lookup n).isSome

/-- A logger comes below a new one above it, unless the logger it is below begins with the name of
the new one and so is nearer. This is looked at for the name of the root logger, too. -/
def adopt (name : String) (child : String × Logger) : String × Logger :=
  if name ∈ namesAbove child.1 ∧ ¬ name.toList <+: (child.2.parent.getD rootName).toList then
    (child.1, { child.2 with parent := some name })
  else child

def provide (r : Registry) (name : String) : Registry :=
  if (r.logger? name).isSome then r
  else { r with
    loggers := (name, .fresh r.nextId (r.nearest? name)) :: r.loggers.map (adopt name) }

def putLogger (name : String) (x : Logger) : List (String × Logger) → List (String × Logger)
  | [] => [(name, x)]
  | (n, y) :: rest => if n = name then (n, x) :: rest else (n, y) :: putLogger name x rest

theorem lookup_cons (name other : String) (x : Logger) (loggers : List (String × Logger)) :
    ((name, x) :: loggers).lookup other =
      if other = name then some x else loggers.lookup other := by
  by_cases h : other = name
  · simp [h]
  · rw [List.lookup_cons, beq_false_of_ne h, if_neg h]

theorem lookup_putLogger (name other : String) (x : Logger) (loggers : List (String × Logger)) :
    (putLogger name x loggers).lookup other =
      if other = name then some x else loggers.lookup other := by
  induction loggers with
  | nil => exact lookup_cons name other x []
  | cons l rest ih =>
    obtain ⟨n, y⟩ := l
    by_cases hn : n = name
    · subst hn
      simp only [putLogger, if_pos, lookup_cons]
      split <;> rfl
    · simp only [putLogger, if_neg hn, lookup_cons, ih]
      by_cases h : other = name
      · simp [h, Ne.symm hn]
      · simp [h]

def set (r : Registry) (name : String) (x : Logger) : Registry :=
  if isRoot name then { r with root := x } else { r with loggers := putLogger name x r.loggers }

/-- Give the logger of a name a level and a handler, and let it keep its records to itself. -/
def configure (r : Registry) (name : String) (level : Int) : Registry :=
  let x := r.logger name
  { r.set name { x with level := level, handlers := x.handlers ++ [name], propagate := false } with
    configured := name :: r.configured }

/-- The names from the given one above upwards, where each name stands above one that it begins. The
name below is given from its last character on. -/
def climb (r : Registry) : Option String → List Char → List String
  | some p, _ :: rest =>
    if String.ofList rest.reverse = p then p :: climb r (r.logger p).parent rest
    else climb r (some p) rest
  | _, _ => []

def path (r : Registry) (name : String) : List String :=
  if isRoot name then [] else name :: r.climb (r.logger name).parent name.toList.reverse

/-- The loggers that hear of a record, from the one of the name up to the root one. -/
def lineage (r : Registry) (name : String) : List Logger := (r.path name).map r.logger ++ [r.root]

def effectiveLevel (r : Registry) (name : String) : Int :=
  (((r.provide name).lineage name).find? (·.level ≠ 0)).elim 0 Logger.level

/-- The handlers that a record reaches: upwards until a logger keeps its records to itself. -/
def reached : List Logger → List String
  | [] => []
  | x :: rest => x.handlers ++ if x.propagate then reached rest else []

def isEnabled (r : Registry) (name : String) (level : Int) : Bool :=
  decide (0 < level) && decide (r.effectiveLevel name ≤ level)

/-- The handlers that write a record, by name. The logger of the record comes to be with it. -/
def written (r : Registry) (name : String) (level : Int) : List String :=
  if r.isEnabled name level then reached ((r.provide name).lineage name) else []

/-- Ask for the logger of a name. A name that is configured stays as it is. -/
def request (r : Registry) (name : String) (level : Json) : Registry × Except LevelError Logger :=
  let present := r.provide name
  if r.configured.contains name then (present, .ok (present.logger name))
  else match levelOfAnyCase level with
    | .error e => (present, .error e)
    | .ok n =>
      let configured := present.configure name n
      (configured, .ok (configured.logger name))

end Registry

end AdfMarkdown.Log
