import AdfMarkdown.Json.Writer
import AdfMarkdown.Number.Notation
import AdfMarkdown.Text.Digit

/-! # Message templates

A message with directives, each a percent sign, flags, a width, a precision and a letter, which
values are put into one after the other. Two percent signs stand for one. If there is a single value
and it is an object, its fields can be put in by name.
-/

namespace AdfMarkdown.Log

inductive TemplateError where
  | tooFewValues
  | tooManyValues
  | needsMapping
  | missingField (name : String)
  | incompleteName
  | incomplete
  | sizeNotInteger
  | widthTooLarge
  | precisionTooLarge
  | unsupported (letter : Char) (index : Nat)
  | notReal (letter : Char) (kindName : String)
  | notInteger (letter : Char) (kindName : String)
  | notNumber (kindName : String)
  | notCharacter
  | noSuchCharacter
  | nanToInteger
  | infinityToInteger
  | tooLargeForFloat
  deriving DecidableEq, Repr

def TemplateError.message : TemplateError → String
  | tooFewValues => "not enough arguments for format string"
  | tooManyValues => "not all arguments converted during string formatting"
  | needsMapping => "format requires a mapping"
  | missingField name => Text.quoted name
  | incompleteName => "incomplete format key"
  | incomplete => "incomplete format"
  | sizeNotInteger => "* wants int"
  | widthTooLarge => "width too big"
  | precisionTooLarge => "precision too big"
  | unsupported letter index =>
    "unsupported format character '" ++
      String.singleton (if 31 ≤ letter.toNat ∧ letter.toNat ≤ 126 then letter else '?') ++
      "' (0x" ++ String.ofList (Nat.toDigits 16 letter.toNat) ++ ") at index " ++ toString index
  | notReal letter kindName =>
    "%" ++ String.singleton letter ++ " format: a real number is required, not " ++ kindName
  | notInteger letter kindName =>
    "%" ++ String.singleton letter ++ " format: an integer is required, not " ++ kindName
  | notNumber kindName => "must be real number, not " ++ kindName
  | notCharacter => "%c requires int or char"
  | noSuchCharacter => "%c arg not in range(0x110000)"
  | nanToInteger => "cannot convert float NaN to integer"
  | infinityToInteger => "cannot convert float infinity to integer"
  | tooLargeForFloat => "int too large to convert to float"

inductive Arguments where
  | listed (values : List Json)
  | named (fields : Fields) (next : Option Json)

namespace Arguments

/-- The values in a list; one object alone can be used by the names of its fields. -/
def ofList : List Json → Arguments
  | [.object (f :: fields)] => named (f :: fields) (some (.object (f :: fields)))
  | values => listed values

def take : Arguments → Except TemplateError (Json × Arguments)
  | listed (v :: rest) => .ok (v, listed rest)
  | named fields (some v) => .ok (v, named fields none)
  | listed [] | named _ none => .error .tooFewValues

def select (name : String) : Arguments → Except TemplateError Arguments
  | named fields _ => match Fields.get? name fields with
    | some v => .ok (named fields (some v))
    | none => .error (.missingField name)
  | listed _ => .error .needsMapping

def isDone : Arguments → Bool
  | listed (_ :: _) => false
  | _ => true

end Arguments

structure Directive where
  left : Bool
  plus : Bool
  blank : Bool
  alternate : Bool
  zero : Bool
  width : Nat
  precision : Option Nat
  letter : Char
  deriving Repr

def readFlags (d : Directive) : List Char → Directive × List Char
  | '-' :: s => readFlags { d with left := true } s
  | '+' :: s => readFlags { d with plus := true } s
  | ' ' :: s => readFlags { d with blank := true } s
  | '#' :: s => readFlags { d with alternate := true } s
  | '0' :: s => readFlags { d with zero := true } s
  | s => (d, s)

def readName : (depth : Nat) → List Char → Option (List Char × List Char)
  | _, [] => none
  | depth, '(' :: s => (readName (depth + 1) s).map fun r => ('(' :: r.1, r.2)
  | 0, ')' :: s => some ([], s)
  | depth + 1, ')' :: s => (readName depth s).map fun r => (')' :: r.1, r.2)
  | depth, c :: s => (readName depth s).map fun r => (c :: r.1, r.2)

/-- A size: a value for a star, or digits. -/
def readSize (args : Arguments) (s : List Char) :
    Except TemplateError (Option Int × Arguments × List Char) :=
  match s with
  | '*' :: rest => do
    let (v, args) ← args.take
    match v.asNumber with
    | .int n => return (some n, args, rest)
    | _ => throw .sizeNotInteger
  | s =>
    let digits := s.takeWhile Text.isDigit
    let n : Int := Text.digitsValue 10 digits
    .ok (if digits.isEmpty then none else some n, args, s.drop digits.length)

/-- The letter for a size in memory, which has no effect. -/
def skipSizeLetter : List Char → List Char
  | 'h' :: s | 'l' :: s | 'L' :: s => s
  | s => s

def maxSize : Nat := Nat.pow 2 31 - 1

def readDirective (args : Arguments) (s : List Char) :
    Except TemplateError (Directive × Arguments × List Char) := do
  let (args, s) ← match s with
    | '(' :: rest => match args, readName 0 rest with
      | .listed _, _ => throw .needsMapping
      | _, none => throw .incompleteName
      | args, some (name, rest) => do
        let args ← args.select (String.ofList name)
        pure (args, rest)
    | s => pure (args, s)
  let (d, s) := readFlags ⟨false, false, false, false, false, 0, none, ' '⟩ s
  let (width, args, s) ← readSize args s
  let width := width.getD 0
  if maxSize < width.natAbs then throw .widthTooLarge
  let d := { d with left := d.left || decide (width < 0), width := width.natAbs }
  let (precision, args, s) ← match s with
    | '.' :: rest => do
      let (precision, args, s) ← readSize args rest
      pure (some (precision.getD 0).toNat, args, s)
    | s => pure (none, args, s)
  if maxSize < precision.getD 0 then throw .precisionTooLarge
  match skipSizeLetter s with
  | letter :: rest => return ({ d with precision := precision, letter := letter }, args, rest)
  | [] => throw .incomplete

/-- The whole number of a value, rounded toward zero where the directive is a decimal one. -/
def wholeNumber (letter : Char) (v : Json) : Except TemplateError Int :=
  let decimal := letter == 'd' || letter == 'i' || letter == 'u'
  match v.asNumber with
  | .int n => .ok n
  | .float x =>
    if decimal then
      match x with
      | .nan => .error .nanToInteger
      | .infinity _ => .error .infinityToInteger
      | x => .ok ((x.truncate?).getD 0)
    else .error (.notInteger letter v.kindName)
  | _ => .error (if decimal then .notReal letter v.kindName else .notInteger letter v.kindName)

def baseOf : Char → Nat
  | 'o' => 8
  | 'x' | 'X' => 16
  | _ => 10

def baseMark (d : Directive) : List Char :=
  if d.alternate && baseOf d.letter != 10 then ['0', d.letter] else []

def wholeParts (d : Directive) (n : Int) : List Char × List Char :=
  let digits := Nat.toDigits (baseOf d.letter) n.natAbs
  let digits := if d.letter = 'X' then digits.map Char.toUpper else digits
  (if n < 0 then ['-'] else [], Decimal.zeros (d.precision.getD 0 - digits.length) ++ digits)

def notationOf (letter : Char) : Binary64.Notation :=
  if letter = 'f' ∨ letter = 'F' then .fixed
  else if letter = 'e' ∨ letter = 'E' then .scientific
  else .general

def realParts (d : Directive) (x : Binary64) : List Char × List Char :=
  let s := x.toPrecision (notationOf d.letter) d.alternate (d.precision.getD 6)
  let s := if d.letter.isUpper then s.map Char.toUpper else s
  match s with
  | '-' :: s => (['-'], s)
  | s => ([], s)

def realNumber (v : Json) : Except TemplateError Binary64 :=
  match v.asNumber with
  | .int n => match Binary64.ofInt n with
    | .infinity _ => .error .tooLargeForFloat
    | x => .ok x
  | .float x => .ok x
  | v => .error (.notNumber v.kindName)

/-- The sign that the directive gives to a number that has none. -/
def signOf (d : Directive) (sign : List Char) : List Char :=
  if !sign.isEmpty then sign else if d.plus then ['+'] else if d.blank then [' '] else []

/-- A number at its width: blanks go before the sign, zeros behind it. -/
def padNumber (d : Directive) (sign digits : List Char) : List Char :=
  let start := signOf d sign ++ baseMark d
  let missing := d.width - (start.length + digits.length)
  if d.zero && !d.left then start ++ Decimal.zeros missing ++ digits
  else if d.left then start ++ digits ++ List.replicate missing ' '
  else List.replicate missing ' ' ++ start ++ digits

def padText (d : Directive) (s : List Char) : List Char :=
  let blanks := List.replicate (d.width - s.length) ' '
  if d.left then s ++ blanks else blanks ++ s

def cutText (d : Directive) (s : String) : List Char :=
  padText d (match d.precision with
    | some n => s.toList.take n
    | none => s.toList)

def shownAscii (v : Json) : String :=
  String.ofList (v.shown.toList.flatMap fun c => if c.toNat < 128 then [c] else Text.escapeCode c)

def characterOf (v : Json) : Except TemplateError Char :=
  match v.asNumber with
  | .int n =>
    if 0 ≤ n ∧ n < 0x110000 then .ok (Char.ofNat n.toNat) else .error .noSuchCharacter
  | .text s => match s.toList with
    | [c] => .ok c
    | _ => .error .notCharacter
  | _ => .error .notCharacter

/-- What a directive makes of a value; `index` is the place of its letter. -/
def Directive.apply (d : Directive) (index : Nat) (v : Json) : Except TemplateError (List Char) :=
  match d.letter with
  | 's' => .ok (cutText d v.inserted)
  | 'r' => .ok (cutText d v.shown)
  | 'a' => .ok (cutText d (shownAscii v))
  | 'c' => do return padText d [← characterOf v]
  | 'd' | 'i' | 'u' | 'o' | 'x' | 'X' => do
    let (sign, digits) := wholeParts d (← wholeNumber d.letter v)
    return padNumber d sign digits
  | 'e' | 'E' | 'f' | 'F' | 'g' | 'G' => do
    let (sign, digits) := realParts d (← realNumber v)
    return padNumber d sign digits
  | letter => .error (.unsupported letter index)

/-- The text with the values put in; `total` is the length of the whole template. -/
def fill (total : Nat) : (fuel : Nat) → Arguments → List Char → Except TemplateError (List Char)
  | 0, _, _ => .ok []
  | _ + 1, args, [] => if args.isDone then .ok [] else .error .tooManyValues
  | fuel + 1, args, '%' :: '%' :: s => do return '%' :: (← fill total fuel args s)
  | fuel + 1, args, '%' :: s => do
    let (d, args, rest) ← readDirective args s
    let (v, args) ← args.take
    let part ← d.apply (total - rest.length - 1) v
    return part ++ (← fill total fuel args rest)
  | fuel + 1, args, c :: s => do return c :: (← fill total fuel args s)

/-- The message of a template. Without values it is the template itself. -/
def format (template : String) (values : List Json) : Except TemplateError String :=
  if values.isEmpty then .ok template
  else
    let s := template.toList
    (fill s.length (s.length + 1) (.ofList values) s).map String.ofList

end AdfMarkdown.Log
