/-!
# Base64

Three bytes are four characters of six bits each.  Decoding runs over the characters and holds the
bits that do not make up a byte yet; how many are held is the position in the current group.

Decoding is either lenient or strict.  Lenient decoding skips every character outside the alphabet
and every misplaced padding; strict decoding refuses both, and anything after the padding.
-/

namespace PromptCanvas
namespace Base64

/-- Why a text cannot be decoded. -/
inductive Fault where
  | notAscii
  | outsideAlphabet
  | leadingPadding
  | brokenPadding
  | afterPadding
  /-- `count` characters were read, one more than a number of whole groups. -/
  | loneCharacter (count : Nat)
  | missingPadding
deriving Repr, DecidableEq

def Fault.message : Fault → String
  | .notAscii => "string argument should contain only ASCII characters"
  | .outsideAlphabet => "Only base64 data is allowed"
  | .leadingPadding => "Leading padding not allowed"
  | .brokenPadding => "Discontinuous padding not allowed"
  | .afterPadding => "Excess data after padding"
  | .loneCharacter count =>
    s!"Invalid base64-encoded string: number of data characters ({count}) "
      ++ "cannot be 1 more than a multiple of 4"
  | .missingPadding => "Incorrect padding"

/-- The character of six bits. -/
def encodeSextet (n : Nat) : Char :=
  if n < 26 then Char.ofNat (65 + n)
  else if n < 52 then Char.ofNat (71 + n)
  else if n < 62 then Char.ofNat (n - 4)
  else if n == 62 then '+' else '/'

/-- The six bits of a character of the alphabet. -/
def sextet? (c : Char) : Option Nat :=
  if 'A' ≤ c && c ≤ 'Z' then some (c.toNat - 65)
  else if 'a' ≤ c && c ≤ 'z' then some (c.toNat - 71)
  else if '0' ≤ c && c ≤ '9' then some (c.toNat + 4)
  else if c == '+' then some 62
  else if c == '/' then some 63
  else none

/-- The characters of a row of bytes, padded to whole groups. -/
def encodeBytes : List UInt8 → List Char
  | [] => []
  | [a] => [encodeSextet (a.toNat / 4), encodeSextet (a.toNat % 4 * 16), '=', '=']
  | [a, b] =>
    [encodeSextet (a.toNat / 4), encodeSextet (a.toNat % 4 * 16 + b.toNat / 16),
      encodeSextet (b.toNat % 16 * 4), '=']
  | a :: b :: c :: rest =>
    encodeSextet (a.toNat / 4) :: encodeSextet (a.toNat % 4 * 16 + b.toNat / 16)
      :: encodeSextet (b.toNat % 16 * 4 + c.toNat / 64) :: encodeSextet (c.toNat % 64)
      :: encodeBytes rest

def encode (bytes : List UInt8) : String := String.ofList (encodeBytes bytes)

/-- The place in the current group, with the bits that are held there. -/
inductive Held where
  | zero
  | one (bits : Nat)
  | two (bits : Nat)
  | three (bits : Nat)
deriving Repr, DecidableEq

/-- How many characters of the group were read. -/
def Held.position : Held → Nat
  | .zero => 0
  | .one _ => 1
  | .two _ => 2
  | .three _ => 3

/-- Takes in six more bits; the byte that they complete, if they do. -/
def Held.push (v : Nat) : Held → Held × Option UInt8
  | .zero => (.one v, none)
  | .one bits => (.two (v % 16), some (UInt8.ofNat (bits * 4 + v / 16)))
  | .two bits => (.three (v % 4), some (UInt8.ofNat (bits * 16 + v / 4)))
  | .three bits => (.zero, some (UInt8.ofNat (bits * 64 + v)))

/-- Where decoding stands: the held bits, how many paddings in a row count, whether any padding was
seen, and how many bytes are complete. -/
structure State where
  held : Held
  pads : Nat
  padded : Bool
  bytes : Nat

def State.start : State := ⟨.zero, 0, false, 0⟩

/-- What is left at the end of the text. -/
def State.finish (s : State) : Except Fault (List UInt8) :=
  match s.held with
  | .zero => .ok []
  | .one _ => .error (.loneCharacter (s.bytes / 3 * 4 + 1))
  | _ => .error .missingPadding

/-- The bytes of the rest of a text.  A padding counts only once two characters of the group were
read; the padding that fills the group ends the data. -/
def decodeFrom (strict : Bool) (s : State) : List Char → Except Fault (List UInt8)
  | [] => s.finish
  | c :: rest =>
    if c == '=' then
      if 2 ≤ s.held.position then
        if 4 ≤ s.held.position + s.pads + 1 then
          if strict && !rest.isEmpty then .error .afterPadding else .ok []
        else decodeFrom strict { s with padded := true, pads := s.pads + 1 } rest
      else decodeFrom strict { s with padded := true } rest
    else
      match sextet? c with
      | none => if strict then .error .outsideAlphabet else decodeFrom strict s rest
      | some v =>
        if strict && s.padded then .error .brokenPadding
        else
          match s.held.push v with
          | (held, none) => decodeFrom strict { s with held, pads := 0 } rest
          | (held, some byte) =>
            (decodeFrom strict { s with held, pads := 0, bytes := s.bytes + 1 } rest).map
              (byte :: ·)

/-- The bytes of a text. -/
def decode (strict : Bool) (text : String) : Except Fault (List UInt8) :=
  let cs := text.toList
  if cs.any (128 ≤ ·.toNat) then .error .notAscii
  else if strict && cs.head? == some '=' then .error .leadingPadding
  else decodeFrom strict .start cs

end Base64
end PromptCanvas
