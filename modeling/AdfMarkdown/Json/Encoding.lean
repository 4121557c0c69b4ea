import AdfMarkdown.Json.Reader

/-! # Encodings of JSON texts

The encoding is told from a byte order mark, or else from where the first bytes are zero. A
surrogate that stands alone counts as one character, which no text can hold: it is read as the
replacement character.
-/

namespace AdfMarkdown.Json

inductive ByteOrder where
  | big
  | little
  deriving DecidableEq, Repr

/-- An encoding, with the number of bytes of its mark at the start. -/
inductive Encoding where
  | utf8
  | utf16 (order : ByteOrder)
  | utf32 (order : ByteOrder)
  deriving DecidableEq, Repr

def markedEncoding : List UInt8 → Option (Encoding × Nat)
  | 0x00 :: 0x00 :: 0xfe :: 0xff :: _ => some (.utf32 .big, 4)
  | 0xff :: 0xfe :: 0x00 :: 0x00 :: _ => some (.utf32 .little, 4)
  | 0xfe :: 0xff :: _ => some (.utf16 .big, 2)
  | 0xff :: 0xfe :: _ => some (.utf16 .little, 2)
  | 0xef :: 0xbb :: 0xbf :: _ => some (.utf8, 3)
  | _ => none

/-- The encoding that the zero bytes at the start betray. -/
def guessedEncoding : List UInt8 → Encoding
  | a :: b :: c :: d :: _ =>
    if a == 0 then if b == 0 then .utf32 .big else .utf16 .big
    else if b == 0 then if c == 0 && d == 0 then .utf32 .little else .utf16 .little
    else .utf8
  | [a, b] => if a == 0 then .utf16 .big else if b == 0 then .utf16 .little else .utf8
  | _ => .utf8

def consChar (n : Nat) (rest : Except Nat (List Char)) : Except Nat (List Char) :=
  rest.map (charOfUnit n :: ·)

def isContinuation (b : UInt8) : Bool := 0x80 ≤ b && b ≤ 0xbf

def startsThree (a b : UInt8) : Bool :=
  (a == 0xe0 && 0xa0 ≤ b && b ≤ 0xbf) || (0xe1 ≤ a && a ≤ 0xef && isContinuation b)

def startsFour (a b : UInt8) : Bool :=
  (a == 0xf0 && 0x90 ≤ b && b ≤ 0xbf) || (0xf1 ≤ a && a ≤ 0xf3 && isContinuation b) ||
    (a == 0xf4 && 0x80 ≤ b && b ≤ 0x8f)

def lowBits (b : UInt8) : Nat := b.toNat % 64

/-- The characters of UTF-8, or the offset of the first byte that starts none. -/
def decodeUtf8 (offset : Nat) : List UInt8 → Except Nat (List Char)
  | [] => .ok []
  | a :: afterA =>
    if a < 0x80 then consChar a.toNat (decodeUtf8 (offset + 1) afterA)
    else match afterA with
      | [] => .error offset
      | b :: afterB =>
        if 0xc2 ≤ a && a ≤ 0xdf && isContinuation b then
          consChar (a.toNat % 32 * 64 + lowBits b) (decodeUtf8 (offset + 2) afterB)
        else match afterB with
          | [] => .error offset
          | c :: afterC =>
            if startsThree a b && isContinuation c then
              consChar ((a.toNat % 16 * 64 + lowBits b) * 64 + lowBits c)
                (decodeUtf8 (offset + 3) afterC)
            else match afterC with
              | [] => .error offset
              | d :: afterD =>
                if startsFour a b && isContinuation c && isContinuation d then
                  consChar (((a.toNat % 8 * 64 + lowBits b) * 64 + lowBits c) * 64 + lowBits d)
                    (decodeUtf8 (offset + 4) afterD)
                else .error offset

def unit16 (order : ByteOrder) (a b : UInt8) : Nat :=
  match order with
  | .big => a.toNat * 256 + b.toNat
  | .little => b.toNat * 256 + a.toNat

/-- The characters of UTF-16, or the offset of a last byte without its partner. -/
def decodeUtf16 (order : ByteOrder) (offset : Nat) : List UInt8 → Except Nat (List Char)
  | [] => .ok []
  | [_] => .error offset
  | a :: b :: c :: d :: rest =>
    let m := unit16 order a b
    let n := unit16 order c d
    if isHighUnit m && isLowUnit n then
      consChar (0x10000 + (m - 0xD800) * 0x400 + (n - 0xDC00)) (decodeUtf16 order (offset + 4) rest)
    else consChar m (decodeUtf16 order (offset + 2) (c :: d :: rest))
  | a :: b :: rest => consChar (unit16 order a b) (decodeUtf16 order (offset + 2) rest)

/-- The characters of UTF-32, or the offset of what is too large or too short. -/
def decodeUtf32 (order : ByteOrder) (offset : Nat) : List UInt8 → Except Nat (List Char)
  | [] => .ok []
  | a :: b :: c :: d :: rest =>
    let n := match order with
      | .big => unit16 .big a b * 65536 + unit16 .big c d
      | .little => unit16 .little c d * 65536 + unit16 .little a b
    if n ≤ 0x10ffff then consChar n (decodeUtf32 order (offset + 4) rest) else .error offset
  | _ => .error offset

/-- The characters of a text in bytes, or the offset where decoding fails. The mark of UTF-8
does not count in the offset, the marks of the others do. -/
def decode (bytes : List UInt8) : Except Nat (List Char) :=
  let (encoding, mark) := (markedEncoding bytes).getD (guessedEncoding bytes, 0)
  let body := bytes.drop mark
  match encoding with
  | .utf8 => decodeUtf8 0 body
  | .utf16 order => decodeUtf16 order mark body
  | .utf32 order => decodeUtf32 order mark body

end AdfMarkdown.Json
