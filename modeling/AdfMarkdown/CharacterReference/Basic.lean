import AdfMarkdown.CharacterReference.Names
import AdfMarkdown.Text.Digit
import AdfMarkdown.Text.Lines

/-! # Character references

References by name or by number that end in a semicolon, and the text with each one put in
characters.
-/

namespace AdfMarkdown.CharacterReference

/-- A name, the characters it stands for, and whether it is known without its semicolon. -/
structure Entry where
  name : List Char
  value : List Char
  bare : Bool
  deriving Repr

def Entry.ofWord (word : List Char) : Entry :=
  let (bare, word) : Bool × List Char := match word with
    | '*' :: rest => (true, rest)
    | rest => (false, rest)
  let name := word.takeWhile (· != '=')
  let codes := Text.splitAt '+' (word.drop (name.length + 1))
  ⟨name, codes.map fun code => Char.ofNat (Text.digitsValue 16 code), bare⟩

def tableWords : List (List Char) :=
  ((Text.splitAt '\n' nameTable.toList).flatMap (Text.splitAt ' ')).filter (!·.isEmpty)

def entries : List Entry := tableWords.map Entry.ofWord

def named? (name : List Char) : Option (List Char) :=
  (entries.find? (·.name == name)).map (·.value)

/-- The characters of a name that is known without its semicolon. -/
def bare? (name : List Char) : Option (List Char) :=
  (entries.find? fun e => e.bare && e.name == name).map (·.value)

/-- The characters of the longest start of a name, of two to `n` characters, that is known
without its semicolon, and what follows it. -/
def longestBare? (name : List Char) : (n : Nat) → Option (List Char)
  | 0 | 1 => none
  | n + 2 => match bare? (name.take (n + 2)) with
    | some value => some (value ++ name.drop (n + 2))
    | none => longestBare? name (n + 1)

/-- The code points from 128 to 159 stand for what an older code page puts there. -/
def codePage : List Nat :=
  [0x20AC, 0x81, 0x201A, 0x192, 0x201E, 0x2026, 0x2020, 0x2021, 0x2C6, 0x2030, 0x160, 0x2039,
    0x152, 0x8D, 0x17D, 0x8F, 0x90, 0x2018, 0x2019, 0x201C, 0x201D, 0x2022, 0x2013, 0x2014,
    0x2DC, 0x2122, 0x161, 0x203A, 0x153, 0x9D, 0x17E, 0x178]

def noCharacters : List Text.CodeRange :=
  [(0x1, 0x8), (0xB, 0xB), (0xE, 0x1F), (0x7F, 0x9F), (0xFDD0, 0xFDEF)]

def isNothing (n : Nat) : Bool :=
  noCharacters.any (fun r => decide (r.1 ≤ n ∧ n ≤ r.2)) || decide (0xFFFE ≤ n % 0x10000)

def numbered (n : Nat) : List Char :=
  if n = 0 then ['\ufffd']
  else if 128 ≤ n ∧ n ≤ 159 then [Char.ofNat (codePage.getD (n - 128) 0)]
  else if (0xD800 ≤ n ∧ n ≤ 0xDFFF) ∨ 0x10FFFF < n then ['\ufffd']
  else if isNothing n then []
  else [Char.ofNat n]

def isNameChar (c : Char) : Bool :=
  !(c == '\t' || c == '\n' || c == '\x0c' || c == ' ' || c == '<' || c == '&' || c == '#' ||
    c == ';')

/-- What the text between an ampersand and a semicolon stands for, when it is a name. A name
that is not known stays as it is. -/
def ofName (name : List Char) : List Char :=
  match named? name with
  | some value => value
  | none => match longestBare? name name.length with
    | some value => value ++ [';']
    | none => '&' :: name ++ [';']

/-- The reference after an ampersand: its characters and the length of what it takes. -/
def read? (s : List Char) : Option (List Char × Nat) :=
  match s with
  | '#' :: x :: rest =>
    if x == 'x' || x == 'X' then
      let digits := rest.takeWhile Text.isHexDigit
      if digits.isEmpty || (rest.drop digits.length).head? != some ';' then none
      else some (numbered (Text.digitsValue 16 digits), digits.length + 3)
    else
      let digits := (x :: rest).takeWhile Text.isDigit
      if digits.isEmpty || 7 < digits.length || ((x :: rest).drop digits.length).head? != some ';'
      then none
      else some (numbered (Text.digitsValue 10 digits), digits.length + 2)
  | s =>
    let name := s.takeWhile isNameChar
    if name.isEmpty || 32 < name.length || (s.drop name.length).head? != some ';' then none
    else some (ofName name, name.length + 1)

/-- The text with its references put in characters; `skip` characters belong to the reference
just read. -/
def expandFrom : (skip : Nat) → List Char → List Char
  | _, [] => []
  | skip + 1, _ :: s => expandFrom skip s
  | 0, c :: s =>
    if c = '&' then
      match read? s with
      | some (value, length) => value ++ expandFrom length s
      | none => c :: expandFrom 0 s
    else c :: expandFrom 0 s

def expand (s : List Char) : List Char := expandFrom 0 s

end AdfMarkdown.CharacterReference
