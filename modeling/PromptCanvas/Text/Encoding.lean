import PromptCanvas.Text.Surrogate

/-!
# Encodings

How a text is laid out in bytes.  A text whose encoding is not told shows it by where its first zero
bytes are, if it starts with characters of one byte.
-/

namespace PromptCanvas
namespace Text

/-- A way of laying out a text in bytes; `big` if the first byte of a number is its highest. -/
inductive Encoding where
  | utf8
  | utf16 (big : Bool)
  | utf32 (big : Bool)
deriving Repr, DecidableEq

/-- The bytes of a code point in UTF-8. -/
def utf8Bytes (n : Nat) : List Nat :=
  if n < 0x80 then [n]
  else if n < 0x800 then [0xc0 + n / 0x40, 0x80 + n % 0x40]
  else if n < 0x10000 then [0xe0 + n / 0x1000, 0x80 + n / 0x40 % 0x40, 0x80 + n % 0x40]
  else [0xf0 + n / 0x40000, 0x80 + n / 0x1000 % 0x40, 0x80 + n / 0x40 % 0x40, 0x80 + n % 0x40]

/-- The number that a row of bytes spells, the highest first. -/
def spelledBy (bytes : List Nat) : Nat := bytes.foldl (fun n b => 0x100 * n + b) 0

/-- Numbers of two bytes each; none if a byte is left over. -/
def pairsOfBytes (big : Bool) : List Nat → Option (List Nat)
  | [] => some []
  | a :: b :: rest =>
    (pairsOfBytes big rest).map (spelledBy (if big then [a, b] else [b, a]) :: ·)
  | _ => none

/-- Numbers of four bytes each; none if bytes are left over. -/
def quadsOfBytes (big : Bool) : List Nat → Option (List Nat)
  | [] => some []
  | a :: b :: c :: d :: rest =>
    (quadsOfBytes big rest).map (spelledBy (if big then [a, b, c, d] else [d, c, b, a]) :: ·)
  | _ => none

namespace Encoding

/-- The encoding that the first bytes of a text show. -/
def ofBytes : List Nat → Encoding
  | [a, b] => if a == 0 then .utf16 true else if b == 0 then .utf16 false else .utf8
  | a :: b :: c :: d :: _ =>
    if a == 0 then if b == 0 then .utf32 true else .utf16 true
    else if b == 0 then if c == 0 && d == 0 then .utf32 false else .utf16 false
    else .utf8
  | _ => .utf8

/-- What a text in UTF-8 says if its bytes are read in the encoding that they show.  A half of a
pair may stand alone. -/
def reread? (points : List Nat) : Option (List Nat) :=
  let bytes := points.flatMap utf8Bytes
  match ofBytes bytes with
  | .utf8 => some points
  | .utf16 big => (pairsOfBytes big bytes).map joinPairs
  | .utf32 big => (quadsOfBytes big bytes).bind fun ns =>
    if ns.all (· ≤ 0x10ffff) then some ns else none

end Encoding
end Text
end PromptCanvas
