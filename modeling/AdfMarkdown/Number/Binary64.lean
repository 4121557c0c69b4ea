/-! # Binary floating point of 64 bits

A number is kept as its exact value, a whole number times a power of two. Rounding takes the
nearest number of the format and of two nearest ones the even one.
-/

namespace AdfMarkdown

/-- A binary number of 64 bits. A finite one is `± mantissa · 2 ^ exponent`; the numbers of the
format have a mantissa below `2 ^ 53` and the smallest exponent, at least `-1074`, for it. -/
inductive Binary64 where
  | nan
  | infinity (negative : Bool)
  | finite (negative : Bool) (mantissa : Nat) (exponent : Int)
  deriving DecidableEq, Repr, Inhabited

namespace Binary64

/-- The quotient rounded to a whole number, a half to the even neighbour. -/
def roundQuotient (num den : Nat) : Nat :=
  let q := num / den
  let r := num % den
  if 2 * r < den then q else if den < 2 * r then q + 1 else if q % 2 = 0 then q else q + 1

def scaled (num den : Nat) (e : Int) : Nat × Nat :=
  if e < 0 then (num * Nat.pow 2 e.natAbs, den) else (num, den * Nat.pow 2 e.natAbs)

/-- The exponent that leaves 53 binary digits before the point of `num / den`, but no
exponent below the least one. -/
def roundingExponent (num den : Nat) : Int :=
  let l : Int := (Nat.log2 num : Int) - Nat.log2 den
  let (n, d) := scaled num den l
  max (-1074) (if d ≤ n then l - 52 else l - 53)

/-- The nearest number of the format to `± num / den`. -/
def ofFraction (negative : Bool) (num den : Nat) : Binary64 :=
  if num = 0 then finite negative 0 (-1074)
  else
    let e := roundingExponent num den
    let (n, d) := scaled num den e
    let m := roundQuotient n d
    let (m, e) := if m = Nat.pow 2 53 then (Nat.pow 2 52, e + 1) else (m, e)
    if 971 < e then infinity negative else finite negative m e

def ofInt (n : Int) : Binary64 := ofFraction (decide (n < 0)) n.natAbs 1

/-- The nearest number of the format to `± digits · 10 ^ exponent`. Exponents far outside the
range of the format give zero or an infinity without computing the power. -/
def ofDecimal (negative : Bool) (digits : Nat) (exponent : Int) : Binary64 :=
  let size : Int := (Nat.log2 digits : Int) + 1
  if digits = 0 then finite negative 0 (-1074)
  else if exponent < 0 then
    if 3 * (exponent.natAbs : Int) > 1200 + size then finite negative 0 (-1074)
    else ofFraction negative digits (Nat.pow 10 exponent.natAbs)
  else if exponent > 400 then infinity negative
  else ofFraction negative (digits * Nat.pow 10 exponent.natAbs) 1

/-- The whole part, toward zero; none for an infinity and for what is no number. -/
def truncate? : Binary64 → Option Int
  | finite negative m e =>
    let n : Nat := if e < 0 then m / Nat.pow 2 e.natAbs else m * Nat.pow 2 e.natAbs
    some (if negative then -(n : Int) else n)
  | _ => none

def fraction (m : Nat) (e : Int) : Nat × Nat :=
  if e < 0 then (m, Nat.pow 2 e.natAbs) else (m * Nat.pow 2 e.natAbs, 1)

/-- The nearest number of the format to the one rounded to some decimal places, a half to the even
neighbour. -/
def roundPlaces (places : Nat) : Binary64 → Binary64
  | finite negative m e =>
    let (num, den) := fraction m e
    ofDecimal negative (roundQuotient (num * Nat.pow 10 places) den) (-places)
  | x => x

/-- Equal in value: both zeros are one, and what is no number equals nothing. -/
def sameValue : Binary64 → Binary64 → Bool
  | finite s m e, finite t n f =>
    let (a, b) := fraction m e
    let (c, d) := fraction n f
    a * d == c * b && (s == t || a == 0)
  | infinity s, infinity t => s == t
  | _, _ => false

def sameInt (x : Binary64) (n : Int) : Bool :=
  match x with
  | finite s m e =>
    let (a, b) := fraction m e
    a == n.natAbs * b && (a == 0 || s == decide (n < 0))
  | _ => false

def toBits : Binary64 → Nat
  | nan => 0x7ff8000000000000
  | infinity s => (if s then Nat.pow 2 63 else 0) + 0x7ff0000000000000
  | finite s m e =>
    (if s then Nat.pow 2 63 else 0) +
      (if m < Nat.pow 2 52 then m else (e + 1075).toNat * Nat.pow 2 52 + (m - Nat.pow 2 52))

def isZero : Binary64 → Bool
  | finite _ m _ => m == 0
  | _ => false

end Binary64

end AdfMarkdown
