import AdfMarkdown.CharacterReference.Basic
import AdfMarkdown.Text.Quoted

/-! # Link destinations

A destination as it is written, with backslash escapes, and in its encoded form, where
characters that have no place in an address are percent-encoded.
-/

namespace AdfMarkdown.Url

/-- The ASCII punctuation, which a backslash can escape. -/
def isPunctuation (c : Char) : Bool :=
  let n := c.toNat
  (33 ≤ n && n ≤ 47) || (58 ≤ n && n ≤ 64) || (91 ≤ n && n ≤ 96) || (123 ≤ n && n ≤ 126)

def unescape : List Char → List Char
  | [] => []
  | c :: s =>
    if c = '\\' then
      match s with
      | d :: rest => if isPunctuation d then d :: unescape rest else c :: unescape (d :: rest)
      | [] => [c]
    else c :: unescape s

def isUnreserved (c : Char) : Bool := c.isAlphanum || "_.-~:/?#@!$&()*+,;=%".toList.contains c

def percentByte (b : UInt8) : List Char :=
  '%' :: (Text.hexDigits 2 b.toNat).map Char.toUpper

def encodeChar (c : Char) : List Char :=
  if isUnreserved c then [c] else (String.utf8EncodeChar c).flatMap percentByte

/-- The encoded form of a destination. Character references are put in characters first. -/
def encode (s : List Char) : List Char :=
  (CharacterReference.expand s).flatMap encodeChar

def encodeText (s : String) : String := String.ofList (encode s.toList)

/-- How destinations are coded: what one stands for as it is written, and its encoded form. Links
get their written destinations back under any coding. -/
class Coding where
  unescape : List Char → List Char
  encode : List Char → List Char

instance : Coding where
  unescape := unescape
  encode := encode

def Coding.encodeText [Coding] (s : String) : String := String.ofList (Coding.encode s.toList)

end AdfMarkdown.Url
