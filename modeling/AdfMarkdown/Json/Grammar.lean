import AdfMarkdown.Json.Reader

/-! # The grammar of JSON

The phrases of JSON told without its reader, each with the numbers of digits of its integer
literals.
-/

namespace AdfMarkdown.Json

namespace Grammar

def Gap (s : List Char) : Prop := ∀ c ∈ s, isGap c = true

def Digits (s : List Char) : Prop := s ≠ [] ∧ ∀ c ∈ s, Text.isDigit c = true

/-- The digits in front of the point. A zero in front of them stands alone. -/
def Whole (s : List Char) : Prop := Digits s ∧ (s.head? = some '0' → s = ['0'])

inductive Fraction : List Char → Prop where
  | none : Fraction []
  | digits {s : List Char} : Digits s → Fraction ('.' :: s)

inductive Exponent : List Char → Prop where
  | none : Exponent []
  | digits {e : Char} {sign s : List Char} : e ∈ ['e', 'E'] → sign ∈ [[], ['+'], ['-']] →
      Digits s → Exponent (e :: (sign ++ s))

/-- A number with neither a fraction nor an exponent is an integer literal. -/
inductive Number : List Char → List Nat → Prop where
  | integer {sign s : List Char} : sign ∈ [[], ['-']] → Whole s → Number (sign ++ s) [s.length]
  | decimal {sign s f e : List Char} : sign ∈ [[], ['-']] → Whole s → Fraction f → Exponent e →
      f ++ e ≠ [] → Number (sign ++ (s ++ (f ++ e))) []

inductive Characters : List Char → Prop where
  | nil : Characters []
  | plain {c : Char} {s : List Char} : 32 ≤ c.toNat → c ∉ ['"', '\\'] → Characters s →
      Characters (c :: s)
  | escape {e : Char} {s : List Char} : e ∈ ['"', '\\', '/', 'b', 'f', 'n', 'r', 't'] →
      Characters s → Characters ('\\' :: e :: s)
  | unit {a b c d : Char} {s : List Char} : (∀ x ∈ [a, b, c, d], Text.isHexDigit x = true) →
      Characters s → Characters ('\\' :: 'u' :: a :: b :: c :: d :: s)

/-- The words of JSON, and those for what is no number and for the infinities. -/
def words : List (List Char) :=
  ["null".toList, "true".toList, "false".toList, "NaN".toList, "Infinity".toList,
    "-Infinity".toList]

mutual

inductive Value : List Char → List Nat → Prop where
  | word {s : List Char} : s ∈ words → Value s []
  | number {s : List Char} {ns : List Nat} : Number s ns → Value s ns
  | text {s : List Char} : Characters s → Value ('"' :: (s ++ ['"'])) []
  | emptyArray {s : List Char} : Gap s → Value ('[' :: (s ++ [']'])) []
  | array {s : List Char} {ns : List Nat} : Elements s ns → Value ('[' :: (s ++ [']'])) ns
  | emptyObject {s : List Char} : Gap s → Value ('\x7b' :: (s ++ ['\x7d'])) []
  | object {s : List Char} {ns : List Nat} : Members s ns → Value ('\x7b' :: (s ++ ['\x7d'])) ns

/-- A value with blanks around it. A JSON text is an element. -/
inductive Element : List Char → List Nat → Prop where
  | value {g s h : List Char} {ns : List Nat} : Gap g → Value s ns → Gap h →
      Element (g ++ (s ++ h)) ns

inductive Elements : List Char → List Nat → Prop where
  | last {s : List Char} {ns : List Nat} : Element s ns → Elements s ns
  | more {s t : List Char} {ns ms : List Nat} : Element s ns → Elements t ms →
      Elements (s ++ ',' :: t) (ns ++ ms)

inductive Member : List Char → List Nat → Prop where
  | field {g k h s : List Char} {ns : List Nat} : Gap g → Characters k → Gap h → Element s ns →
      Member (g ++ '"' :: (k ++ '"' :: (h ++ ':' :: s))) ns

inductive Members : List Char → List Nat → Prop where
  | last {s : List Char} {ns : List Nat} : Member s ns → Members s ns
  | more {s t : List Char} {ns ms : List Nat} : Member s ns → Members t ms →
      Members (s ++ ',' :: t) (ns ++ ms)

end

end Grammar

end AdfMarkdown.Json
