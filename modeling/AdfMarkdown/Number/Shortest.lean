import AdfMarkdown.Number.Binary64

/-! # Shortest decimals

The fewest decimal digits that read back as a given number, and of those the nearest. Numbers
from `10 ^ -4` up to `10 ^ 16` are written out in places, all others with an exponent.
-/

namespace AdfMarkdown

def decimalDigits (n : Nat) : List Char := Nat.toDigits 10 n

structure Decimal where
  digits : Nat
  exponent : Int
  deriving DecidableEq, Repr

namespace Decimal

/-- The same number without trailing zeros in its digits; the count bounds the zeros taken. -/
def stripZeros : Nat → Decimal → Decimal
  | 0, x => x
  | n + 1, x =>
    if x.digits ≠ 0 ∧ x.digits % 10 = 0 then stripZeros n ⟨x.digits / 10, x.exponent + 1⟩ else x

def zeros (n : Nat) : List Char := List.replicate n '0'

def positional (digits : List Char) (point : Int) : List Char :=
  let n : Int := digits.length
  if point ≤ 0 then "0.".toList ++ zeros point.natAbs ++ digits
  else if n ≤ point then digits ++ zeros (point - n).toNat ++ ".0".toList
  else digits.take point.toNat ++ '.' :: digits.drop point.toNat

def scientific (digits : List Char) (power : Int) : List Char :=
  let e := decimalDigits power.natAbs
  digits.take 1 ++ (if digits.length ≤ 1 then [] else '.' :: digits.drop 1) ++
    ['e', if power < 0 then '-' else '+'] ++ zeros (2 - e.length) ++ e

/-- Written out in places where the point lies near the digits. -/
def text (x : Decimal) : List Char :=
  let digits := decimalDigits x.digits
  let point := (digits.length : Int) + x.exponent
  if -4 < point ∧ point ≤ 16 then positional digits point else scientific digits (point - 1)

end Decimal

namespace Binary64

/-- The largest power of ten that is at most `num / den`, which is not zero. -/
def decimalExponent (num den : Nat) : Int :=
  if den ≤ num then ((decimalDigits (num / den)).length : Int) - 1
  else -((decimalDigits ((den - 1) / num)).length : Int)

def neighbours (num den : Nat) (e : Int) : Decimal × Decimal :=
  let n := if e < 0 then num * Nat.pow 10 e.natAbs / den else num / (den * Nat.pow 10 e.natAbs)
  (⟨n, e⟩, ⟨n + 1, e⟩)

/-- The second decimal lies nearer to `num / den`, which lies between the two. -/
def upperNearer (num den : Nat) (lower : Decimal) : Bool :=
  let (n, d) := if lower.exponent < 0 then (num * Nat.pow 10 lower.exponent.natAbs, den)
    else (num, den * Nat.pow 10 lower.exponent.natAbs)
  let r := n - lower.digits * d
  decide (d < 2 * r) || (d == 2 * r && lower.digits % 2 == 1)

/-- Try grids of growing fineness, `count` of them, until a neighbour reads back. -/
def shortestFrom (x : Binary64) (negative : Bool) (num den : Nat) : (count : Nat) → Int → Decimal
  | 0, e => (neighbours num den e).1
  | count + 1, e =>
    let (lo, hi) := neighbours num den e
    let readsBack (d : Decimal) := ofDecimal negative d.digits d.exponent == x
    match readsBack lo, readsBack hi with
    | true, true => if upperNearer num den lo then hi else lo
    | true, false => lo
    | false, true => hi
    | false, false => shortestFrom x negative num den count (e - 1)

/-- The fewest digits that read back. Seventeen always suffice. -/
def shortest (negative : Bool) (m : Nat) (e : Int) : Decimal :=
  let (num, den) := fraction m e
  if num = 0 then ⟨0, 0⟩
  else Decimal.stripZeros 17
    (shortestFrom (finite negative m e) negative num den 17 (decimalExponent num den))

def text : Binary64 → String
  | nan => "nan"
  | infinity s => if s then "-inf" else "inf"
  | finite s m e =>
    String.ofList ((if s then ['-'] else []) ++ (shortest s m e).text)

end Binary64

end AdfMarkdown
