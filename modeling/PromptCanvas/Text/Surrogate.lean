/-!
# Halves of surrogate pairs

A text may hold half of a surrogate pair that stands alone, which is no character.  Such a half is
held as the character `halfOffset` above it.  The characters that stand there themselves are held
as the two halves of their own pair, so no two texts are held alike: `codePoints` says what a held
text stands for.
-/

namespace PromptCanvas
namespace Text

/-- How far above itself a half is held. -/
def halfOffset : Nat := 0x100000

/-- The first half of a pair. -/
def isHighHalf (n : Nat) : Bool := 0xd800 ≤ n && n ≤ 0xdbff

/-- The second half of a pair. -/
def isLowHalf (n : Nat) : Bool := 0xdc00 ≤ n && n ≤ 0xdfff

def isHalf (n : Nat) : Bool := isHighHalf n || isLowHalf n

/-- The code point of a pair. -/
def joinHalves (high low : Nat) : Nat := 0x10000 + (high - 0xd800) * 0x400 + (low - 0xdc00)

/-- The characters that hold a code point. -/
def held (n : Nat) : List Char :=
  if isHalf n then [Char.ofNat (halfOffset + n)]
  else if halfOffset ≤ n && isHalf (n - halfOffset) then
    let above := n - 0x10000
    [Char.ofNat (halfOffset + 0xd800 + above / 0x400),
      Char.ofNat (halfOffset + 0xdc00 + above % 0x400)]
  else [Char.ofNat n]

/-- Holds a text of characters. -/
def hold (s : String) : String := String.ofList (s.toList.flatMap fun c => held c.toNat)

/-- The code point that one character holds. -/
def point (c : Char) : Nat :=
  if halfOffset ≤ c.toNat && isHalf (c.toNat - halfOffset) then c.toNat - halfOffset else c.toNat

/-- Puts a code point before others; two halves that make a pair become its code point. -/
def consPoint (n : Nat) : List Nat → List Nat
  | [] => [n]
  | m :: rest =>
    if isHighHalf n && isLowHalf m then joinHalves n m :: rest else n :: m :: rest

/-- Joins the pairs among code points. -/
def joinPairs (ns : List Nat) : List Nat := ns.foldr consPoint []

/-- The code points of a held text. -/
def codePoints (cs : List Char) : List Nat := joinPairs (cs.map point)

/-- The first code point that differs decides; a text comes before what goes on after it. -/
def pointsUpTo : List Nat → List Nat → Bool
  | [], _ => true
  | _ :: _, [] => false
  | m :: ms, n :: ns => m < n || (m == n && pointsUpTo ms ns)

/-- The first of two held texts comes no later than the second in the order of what they stand
for. -/
def upTo (s t : String) : Bool := pointsUpTo (codePoints s.toList) (codePoints t.toList)

/-- The first of two held texts comes before the second. -/
def isBefore (s t : String) : Bool := !upTo t s

/-- Held texts in the order of what they stand for. -/
def inOrder (ss : List String) : List String := ss.mergeSort upTo

/-- Some half of a pair stands alone. -/
def hasLoneHalf (s : String) : Bool := (codePoints s.toList).any isHalf

end Text
end PromptCanvas
