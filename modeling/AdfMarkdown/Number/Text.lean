import AdfMarkdown.Number.Binary64
import AdfMarkdown.Text.Digit
import AdfMarkdown.Text.Space

/-! # Numbers in texts

The decimal notation that people write into a text: white space around it, a sign, digits of any
script with single underscores between them, a point, an exponent, or a word for an infinity or
for what is no number.
-/

namespace AdfMarkdown.Binary64

/-- A digit of any script as an ASCII digit. -/
def plainDigit (c : Char) : Char :=
  match Text.digitValue? c with
  | some n => Char.ofNat (48 + n)
  | none => c

/-- White space around a number; the four ASCII separators do not count. -/
def isMargin (c : Char) : Bool := Text.isSpace c && !(0x1c ≤ c.toNat && c.toNat ≤ 0x1f)

/-- Drop the underscores, which stand between two digits. -/
def dropUnderscores (afterDigit : Bool) : List Char → Option (List Char)
  | [] => some []
  | '_' :: s =>
    if afterDigit && (s.head?.map Text.isDigit).getD false then dropUnderscores false s else none
  | c :: s => (dropUnderscores (Text.isDigit c) s).map (c :: ·)

def takeSign : List Char → Bool × List Char
  | '-' :: s => (true, s)
  | '+' :: s => (false, s)
  | s => (false, s)

def exponent? : List Char → Option Int
  | [] => some 0
  | e :: s =>
    if e == 'e' || e == 'E' then
      let (negative, digits) := takeSign s
      if digits.isEmpty || !digits.all Text.isDigit then none
      else
        let n : Int := Text.digitsValue 10 digits
        some (if negative then -n else n)
    else none

def unsigned? (negative : Bool) (s : List Char) : Option Binary64 :=
  let whole := s.takeWhile Text.isDigit
  let afterWhole := s.drop whole.length
  let (fraction, rest) := match afterWhole with
    | '.' :: r =>
      let fraction := r.takeWhile Text.isDigit
      (fraction, r.drop fraction.length)
    | r => ([], r)
  if whole.isEmpty && fraction.isEmpty then none
  else (exponent? rest).map fun e =>
    ofDecimal negative (Text.digitsValue 10 (whole ++ fraction)) (e - fraction.length)

/-- The number that a text writes. -/
def ofText? (text : String) : Option Binary64 := do
  let s ← dropUnderscores false ((Text.trim isMargin text.toList).map plainDigit)
  let (negative, body) := takeSign s
  let word := String.ofList (body.map Char.toLower)
  if word = "inf" ∨ word = "infinity" then some (infinity negative)
  else if word = "nan" then some nan
  else unsigned? negative body

end AdfMarkdown.Binary64
