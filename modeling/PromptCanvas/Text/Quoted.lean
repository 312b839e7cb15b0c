import PromptCanvas.Text.Printable
import PromptCanvas.Text.Surrogate

/-!
# Quoted texts

A text inside a displayed list or mapping stands in quotes.  The quote is an apostrophe, unless the
text holds an apostrophe and no double quote; what cannot be printed is written by its code point.
-/

namespace PromptCanvas
namespace Text

/-- The lower-case hexadecimal digits of a number, filled with zeros on the left to a width. -/
def hexPadded (width n : Nat) : List Char :=
  let digits := Nat.toDigits 16 n
  List.replicate (width - digits.length) '0' ++ digits

/-- One code point between the given quotes. -/
def quotedPoint (quote : Char) (n : Nat) : List Char :=
  let c := Char.ofNat n
  if isHalf n then '\\' :: 'u' :: hexPadded 4 n
  else if c == quote || c == '\\' then ['\\', c]
  else if c == '\t' then ['\\', 't']
  else if c == '\n' then ['\\', 'n']
  else if c == '\r' then ['\\', 'r']
  else if isPrintable c then [c]
  else if n < 0x100 then '\\' :: 'x' :: hexPadded 2 n
  else if n < 0x10000 then '\\' :: 'u' :: hexPadded 4 n
  else '\\' :: 'U' :: hexPadded 8 n

/-- A text in quotes. -/
def quoted (s : String) : String :=
  let cs := s.toList
  let quote := if cs.contains '\'' && !cs.contains '"' then '"' else '\''
  String.ofList (quote :: (codePoints cs).flatMap (quotedPoint quote) ++ [quote])

end Text
end PromptCanvas
