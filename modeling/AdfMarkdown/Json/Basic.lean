import AdfMarkdown.Number.Binary64

/-! # JSON values

Objects keep their fields in order. Integers are exact and of any size; a number written with a
fraction or an exponent is a binary one.
-/

namespace AdfMarkdown

/-- A JSON value, with the infinities and the number that is none. -/
inductive Json where
  | null
  | bool (value : Bool)
  | int (value : Int)
  | float (value : Binary64)
  | text (value : String)
  | array (items : List Json)
  | object (fields : List (String × Json))
  deriving Repr, Inhabited

/-- The fields of an object in order. -/
abbrev Fields := List (String × Json)

namespace Fields

def get? (key : String) : Fields → Option Json
  | [] => none
  | (k, v) :: rest => if k = key then some v else get? key rest

/-- Give a field a value: in its place if it is there, else at the end. -/
def put (key : String) (value : Json) : Fields → Fields
  | [] => [(key, value)]
  | (k, v) :: rest => if k = key then (k, value) :: rest else (k, v) :: put key value rest

def update (fields new : Fields) : Fields := new.foldl (fun acc f => put f.1 f.2 acc) fields

@[simp] theorem get?_nil (key : String) : get? key [] = none := rfl

theorem get?_put_self (key : String) (value : Json) (fields : Fields) :
    get? key (put key value fields) = some value := by
  induction fields with
  | nil => simp [put, get?]
  | cons f rest ih =>
    by_cases h : f.1 = key <;> simp [put, get?, h, ih]

theorem get?_put_of_ne {key other : String} (h : other ≠ key) (value : Json) (fields : Fields) :
    get? other (put key value fields) = get? other fields := by
  induction fields with
  | nil => simp [put, get?, Ne.symm h]
  | cons f rest ih =>
    by_cases hk : f.1 = key
    · simp [put, get?, hk, Ne.symm h]
    · simp [put, get?, hk, ih]

end Fields

namespace Json

def get? (key : String) : Json → Option Json
  | object fields => Fields.get? key fields
  | _ => none

def text? : Json → Option String
  | text s => some s
  | _ => none

/-- Anything but null, false, zero and what is empty. -/
def truthy : Json → Bool
  | null => false
  | bool b => b
  | int n => n != 0
  | float x => !x.isZero
  | text s => s != ""
  | array items => !items.isEmpty
  | object fields => !fields.isEmpty

/-- Equal in value: numbers by value, with true for one and false for zero. -/
def sameNumber : Json → Json → Bool
  | int m, int n => m == n
  | int m, float y => y.sameInt m
  | float x, int n => x.sameInt n
  | float x, float y => x.sameValue y
  | _, _ => false

def asNumber : Json → Json
  | bool b => int (if b then 1 else 0)
  | v => v

mutual

/-- Equal in value: objects whatever the order of their fields, numbers by value. -/
def same : Json → Json → Bool
  | null, null => true
  | text s, text t => s == t
  | array xs, array ys => sameItems xs ys
  | object fs, object gs => fs.length == gs.length && sameFields fs gs
  | a, b => sameNumber a.asNumber b.asNumber

def sameItems : List Json → List Json → Bool
  | [], [] => true
  | x :: xs, y :: ys => same x y && sameItems xs ys
  | _, _ => false

def sameFields : List (String × Json) → List (String × Json) → Bool
  | [], _ => true
  | (k, v) :: fs, gs =>
    (match Fields.get? k gs with
      | some w => same v w
      | none => false) && sameFields fs gs

end

/-- The name of the kind of value, as error texts give it. -/
def kindName : Json → String
  | null => "NoneType"
  | bool _ => "bool"
  | int _ => "int"
  | float _ => "float"
  | text _ => "str"
  | array _ => "list"
  | object _ => "dict"

end Json

end AdfMarkdown
