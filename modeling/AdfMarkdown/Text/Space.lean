/-! # White space

The white-space characters of Unicode, and trimming and splitting by a class of characters.
-/

namespace AdfMarkdown.Text

/-- White space: the blanks, line ends and separators of Unicode, U+001C to U+001F included. -/
def isSpace (c : Char) : Bool :=
  let n := c.toNat
  (9 ≤ n && n ≤ 13) || (0x1c ≤ n && n ≤ 0x20) || n == 0x85 || n == 0xa0 || n == 0x1680 ||
    (0x2000 ≤ n && n ≤ 0x200a) || n == 0x2028 || n == 0x2029 || n == 0x202f || n == 0x205f ||
    n == 0x3000

/-- A space or a tab. -/
def isBlank (c : Char) : Bool := c == ' ' || c == '\t'

def trimLeft (p : Char → Bool) (s : List Char) : List Char := s.dropWhile p

def trimRight {α : Type} (p : α → Bool) (s : List α) : List α := (s.reverse.dropWhile p).reverse

def trim (p : Char → Bool) (s : List Char) : List Char := trimRight p (trimLeft p s)

def isSpaces (s : List Char) : Bool := s.all isSpace

/-- The first run of characters that are not white space. -/
def firstWord (s : List Char) : List Char := (s.dropWhile isSpace).takeWhile (!isSpace ·)

/-- One mark in place of each run of characters of a class. -/
def collapse (p : Char → Bool) (mark : Char) : List Char → List Char
  | [] => []
  | c :: s =>
    if p c then
      if (s.head?.map p).getD false then collapse p mark s else mark :: collapse p mark s
    else c :: collapse p mark s

end AdfMarkdown.Text
