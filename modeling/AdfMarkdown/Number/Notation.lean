import AdfMarkdown.Number.Shortest

/-! # Numbers to a given precision

A number rounded to so many places after the point, to so many significant digits with an
exponent, or whichever of the two suits its size. An exact half goes to the even neighbour.
-/

namespace AdfMarkdown.Binary64

inductive Notation where
  | fixed
  | scientific
  | general
  deriving DecidableEq, Repr

/-- The digits with a point before the last `places` of them; a point at the end only stays where
it is asked for. -/
def pointed (keepPoint : Bool) (places : Nat) (digits : List Char) : List Char :=
  let digits := Decimal.zeros (places + 1 - digits.length) ++ digits
  let whole := digits.length - places
  digits.take whole ++ (if places = 0 && !keepPoint then [] else ['.']) ++ digits.drop whole

def fixedText (keepPoint : Bool) (places num den : Nat) : List Char :=
  pointed keepPoint places (decimalDigits (roundQuotient (num * Nat.pow 10 places) den))

/-- The fraction rounded to one digit before the point and `places` after it: these digits as one
number, and the power of ten. -/
def scientificParts (places num den : Nat) : Nat × Int :=
  if num = 0 then (0, 0)
  else
    let k := decimalExponent num den
    let shift := (places : Int) - k
    let n := if 0 ≤ shift then roundQuotient (num * Nat.pow 10 shift.natAbs) den
      else roundQuotient num (den * Nat.pow 10 shift.natAbs)
    if n = Nat.pow 10 (places + 1) then (Nat.pow 10 places, k + 1) else (n, k)

def exponentText (power : Int) : List Char :=
  let e := decimalDigits power.natAbs
  'e' :: (if power < 0 then '-' else '+') :: (Decimal.zeros (2 - e.length) ++ e)

def scientificText (keepPoint : Bool) (places num den : Nat) : List Char :=
  let (n, power) := scientificParts places num den
  pointed keepPoint places (decimalDigits n) ++ exponentText power

/-- The digits after the point without trailing zeros, and without the point if none is left. -/
def withoutZeros (s : List Char) : List Char :=
  if s.contains '.' then
    ((s.reverse.dropWhile (· == '0')).dropWhile (· == '.')).reverse
  else s

/-- The fraction with as many significant digits as `precision` tells, in the notation that suits
its size. -/
def generalText (keepPoint : Bool) (precision num den : Nat) : List Char :=
  let digits := max 1 precision
  let (n, power) := scientificParts (digits - 1) num den
  let strip (s : List Char) := if keepPoint then s else withoutZeros s
  if -4 ≤ power ∧ power < digits then
    strip (fixedText keepPoint ((digits : Int) - 1 - power).toNat num den)
  else strip (pointed keepPoint (digits - 1) (decimalDigits n)) ++ exponentText power

def toPrecision (kind : Notation) (keepPoint : Bool) (precision : Nat) : Binary64 → List Char
  | nan => "nan".toList
  | infinity s => if s then "-inf".toList else "inf".toList
  | finite s m e =>
    let (num, den) := fraction m e
    (if s then ['-'] else []) ++ match kind with
      | .fixed => fixedText keepPoint precision num den
      | .scientific => scientificText keepPoint precision num den
      | .general => generalText keepPoint precision num den

end AdfMarkdown.Binary64
