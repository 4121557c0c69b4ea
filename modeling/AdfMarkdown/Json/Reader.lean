import AdfMarkdown.Json.Basic
import AdfMarkdown.Text.Digit

/-! # Reading JSON

A strict reader that also takes `NaN` and the infinities. A fault is placed by what is left of
the text where it shows, so that no reader has to count characters.
-/

namespace AdfMarkdown.Json

inductive Fault where
  | expectingValue
  | expectingName
  | expectingColon
  | expectingComma
  | unterminatedText
  | invalidEscape
  | invalidUnicodeEscape
  | controlCharacter
  | extraData
  | byteOrderMark
  deriving DecidableEq, Repr

def Fault.message : Fault → String
  | expectingValue => "Expecting value"
  | expectingName => "Expecting property name enclosed in double quotes"
  | expectingColon => "Expecting ':' delimiter"
  | expectingComma => "Expecting ',' delimiter"
  | unterminatedText => "Unterminated string starting at"
  | invalidEscape => "Invalid \\escape"
  | invalidUnicodeEscape => "Invalid \\uXXXX escape"
  | controlCharacter => "Invalid control character at"
  | extraData => "Extra data"
  | byteOrderMark => "Unexpected UTF-8 BOM (decode using utf-8-sig)"

/-- The most digits of an integer that is converted from or to decimal text. -/
def maxDigits : Nat := 4300

/-- Why reading stops: a fault with the number of characters left where it shows, or an integer
of too many digits. -/
inductive Failure where
  | fault (kind : Fault) (left : Nat)
  | longInteger (digits : Nat)
  deriving DecidableEq, Repr

def isGap (c : Char) : Bool := c == ' ' || c == '\t' || c == '\n' || c == '\r'

def skipGap (s : List Char) : List Char := s.dropWhile isGap

/-- The four hexadecimal digits of a unicode escape; they may not end the text. -/
def readUnit (s : List Char) : Option (Nat × List Char) :=
  match s with
  | a :: b :: c :: d :: e :: rest => do
    let a ← Text.hexValue? a
    let b ← Text.hexValue? b
    let c ← Text.hexValue? c
    let d ← Text.hexValue? d
    some (((a * 16 + b) * 16 + c) * 16 + d, e :: rest)
  | _ => none

def simpleEscape? : Char → Option Char
  | '"' => some '"'
  | '\\' => some '\\'
  | '/' => some '/'
  | 'b' => some '\x08'
  | 'f' => some '\x0c'
  | 'n' => some '\n'
  | 'r' => some '\r'
  | 't' => some '\t'
  | _ => none

/-- A character by its code point; half of a surrogate pair is not one. -/
def charOfUnit (n : Nat) : Char :=
  if 0xD800 ≤ n ∧ n ≤ 0xDFFF then Char.ofNat 0xFFFD else Char.ofNat n

def isHighUnit (n : Nat) : Bool := decide (0xD800 ≤ n ∧ n ≤ 0xDBFF)

def isLowUnit (n : Nat) : Bool := decide (0xDC00 ≤ n ∧ n ≤ 0xDFFF)

/-- The unicode escape after its `u`; two escapes that make a surrogate pair are one character. -/
def readUnicodeEscape (s : List Char) : Except Failure (Char × List Char) :=
  match readUnit s with
  | none => .error (.fault .invalidUnicodeEscape (s.length + 1))
  | some (n, rest) =>
    if isHighUnit n then
      match rest with
      | '\\' :: 'u' :: second =>
        if second.length < 5 then .ok (charOfUnit n, rest)
        else match readUnit second with
          | none => .error (.fault .invalidUnicodeEscape (second.length + 1))
          | some (m, after) =>
            if isLowUnit m then
              .ok (Char.ofNat (0x10000 + (n - 0xD800) * 0x400 + (m - 0xDC00)), after)
            else .ok (charOfUnit n, rest)
      | _ => .ok (charOfUnit n, rest)
    else .ok (charOfUnit n, rest)

/-- The rest of a string; `start` characters are left at its opening quote. -/
def readText (start : Nat) : (fuel : Nat) → List Char → List Char →
    Except Failure (String × List Char)
  | 0, _, _ => .error (.fault .unterminatedText start)
  | fuel + 1, acc, s =>
    match s with
    | [] => .error (.fault .unterminatedText start)
    | '"' :: rest => .ok (String.ofList acc.reverse, rest)
    | ['\\'] => .error (.fault .unterminatedText start)
    | '\\' :: 'u' :: rest => do
      let (c, rest) ← readUnicodeEscape rest
      readText start fuel (c :: acc) rest
    | '\\' :: e :: rest =>
      match simpleEscape? e with
      | some c => readText start fuel (c :: acc) rest
      | none => .error (.fault .invalidEscape s.length)
    | c :: rest =>
      if c.toNat < 32 then .error (.fault .controlCharacter s.length)
      else readText start fuel (c :: acc) rest

def readWhole : List Char → Option (List Char × List Char)
  | '0' :: rest => some (['0'], rest)
  | s =>
    let digits := s.takeWhile Text.isDigit
    if digits.isEmpty then none else some (digits, s.drop digits.length)

def readFraction : List Char → List Char × List Char
  | '.' :: rest =>
    let digits := rest.takeWhile Text.isDigit
    if digits.isEmpty then ([], '.' :: rest) else (digits, rest.drop digits.length)
  | s => ([], s)

def readExponent (s : List Char) : Option Int × List Char :=
  match s with
  | e :: rest =>
    if e == 'e' || e == 'E' then
      let (negative, body) : Bool × List Char := match rest with
        | '-' :: body => (true, body)
        | '+' :: body => (false, body)
        | body => (false, body)
      let digits := body.takeWhile Text.isDigit
      if digits.isEmpty then (none, s)
      else
        let n : Int := Text.digitsValue 10 digits
        (some (if negative then -n else n), body.drop digits.length)
    else (none, s)
  | [] => (none, s)

def readUnsigned (negative : Bool) (s : List Char) :
    Option (Except Failure (Json × List Char)) := do
  let (whole, afterWhole) ← readWhole s
  let (fraction, afterFraction) := readFraction afterWhole
  let (exponent, rest) := readExponent afterFraction
  if fraction.isEmpty && exponent.isNone then
    if maxDigits < whole.length then some (.error (.longInteger whole.length))
    else
      let n : Int := Text.digitsValue 10 whole
      some (.ok (int (if negative then -n else n), rest))
  else
    let digits := Text.digitsValue 10 (whole ++ fraction)
    some (.ok (float (.ofDecimal negative digits (exponent.getD 0 - fraction.length)), rest))

def readNumber (s : List Char) : Except Failure (Json × List Char) :=
  let found : Option (Except Failure (Json × List Char)) := match s with
    | '-' :: 'I' :: 'n' :: 'f' :: 'i' :: 'n' :: 'i' :: 't' :: 'y' :: rest =>
      some (.ok (float (.infinity true), rest))
    | '-' :: rest => readUnsigned true rest
    | s => readUnsigned false s
  found.getD (.error (.fault .expectingValue s.length))

mutual

def readValue : (fuel : Nat) → List Char → Except Failure (Json × List Char)
  | 0, s => .error (.fault .expectingValue s.length)
  | fuel + 1, s =>
    match s with
    | '"' :: rest => do
      let (t, rest) ← readText s.length s.length [] rest
      return (text t, rest)
    | '[' :: rest =>
      match skipGap rest with
      | ']' :: after => .ok (array [], after)
      | items => do
        let (items, rest) ← readItems fuel items
        return (array items, rest)
    | '\x7b' :: rest =>
      match skipGap rest with
      | '\x7d' :: after => .ok (object [], after)
      | fields => do
        let (fields, rest) ← readFields fuel [] fields
        return (object fields, rest)
    | 'n' :: 'u' :: 'l' :: 'l' :: rest => .ok (null, rest)
    | 't' :: 'r' :: 'u' :: 'e' :: rest => .ok (bool true, rest)
    | 'f' :: 'a' :: 'l' :: 's' :: 'e' :: rest => .ok (bool false, rest)
    | 'N' :: 'a' :: 'N' :: rest => .ok (float .nan, rest)
    | 'I' :: 'n' :: 'f' :: 'i' :: 'n' :: 'i' :: 't' :: 'y' :: rest =>
      .ok (float (.infinity false), rest)
    | s => readNumber s

def readItems : (fuel : Nat) → List Char → Except Failure (List Json × List Char)
  | 0, s => .error (.fault .expectingValue s.length)
  | fuel + 1, s => do
    let (v, rest) ← readValue fuel s
    match skipGap rest with
    | ']' :: after => return ([v], after)
    | ',' :: more =>
      let (vs, rest) ← readItems fuel (skipGap more)
      return (v :: vs, rest)
    | after => throw (.fault .expectingComma after.length)

/-- The fields of an object up to its closing brace; of equal names the last value counts. -/
def readFields : (fuel : Nat) → Fields → List Char → Except Failure (Fields × List Char)
  | 0, _, s => .error (.fault .expectingValue s.length)
  | fuel + 1, acc, s =>
    match s with
    | '"' :: rest => do
      let (k, rest) ← readText s.length s.length [] rest
      match skipGap rest with
      | ':' :: body =>
        let (v, rest) ← readValue fuel (skipGap body)
        let acc := Fields.put k v acc
        match skipGap rest with
        | '\x7d' :: after => return (acc, after)
        | ',' :: more => readFields fuel acc (skipGap more)
        | after => throw (.fault .expectingComma after.length)
      | after => throw (.fault .expectingColon after.length)
    | s => .error (.fault .expectingName s.length)

end

def readAll (s : List Char) : Except Failure Json := do
  let (v, rest) ← readValue (2 * s.length + 2) (skipGap s)
  match skipGap rest with
  | [] => return v
  | extra => throw (.fault .extraData extra.length)

/-- Why a text is not read, with the position of a fault in characters. -/
inductive ReadError where
  | malformed (kind : Fault) (position : Nat)
  | longInteger (digits : Nat)
  deriving DecidableEq, Repr

def readChars (s : List Char) : Except ReadError Json :=
  match readAll s with
  | .ok v => .ok v
  | .error (.fault kind left) => .error (.malformed kind (s.length - left))
  | .error (.longInteger digits) => .error (.longInteger digits)

/-- The value that a text writes. A text does not begin with a byte order mark. -/
def read (s : String) : Except ReadError Json :=
  if s.toList.head? = some '\ufeff' then .error (.malformed .byteOrderMark 0)
  else readChars s.toList

end AdfMarkdown.Json
