import PromptCanvas.Number.Binary64
import PromptCanvas.Text.Classes

/-!
# Reading numbers

The numeral grammar: an optional sign, then digits with at most one point among or around them, then
an optional exponent; or one of the words for infinity and for no number, in any case.  Two readings
of a text differ in what they allow around a numeral.  A coordinate may use the digits of every
script, and an underscore only between two digits.  A field of a record has ASCII digits, and its
underscores are dropped unless one stands at an end or two stand together; a whole number may
also have zeros before it and a fraction of zeros behind it.
-/

namespace PromptCanvas
namespace Number

/-- A numeral: the digits of its whole and of its fractional part, and its exponent. -/
structure Numeral where
  negative : Bool
  whole : List Nat
  fraction : List Nat
  exponent : Int
deriving Repr, DecidableEq

/-- The number that a row of digits names. -/
def ofDigits (ds : List Nat) : Nat := ds.foldl (fun n d => 10 * n + d) 0

/-- The nearest double. -/
def Numeral.toFloat (n : Numeral) : Float :=
  let ds := (n.whole ++ n.fraction).dropWhile (· == 0)
  ofDecimal n.negative (ofDigits ds) ds.length (n.exponent - n.fraction.length)

/-- The longest run of ASCII digits at the front, and what follows it. -/
def takeDigits : List Char → List Nat × List Char
  | [] => ([], [])
  | c :: rest =>
    match Text.asciiDigit? c with
    | none => ([], c :: rest)
    | some d => let (ds, after) := takeDigits rest; (d :: ds, after)

/-- An optional sign at the front. -/
def takeSign : List Char → Bool × List Char
  | '-' :: rest => (true, rest)
  | '+' :: rest => (false, rest)
  | cs => (false, cs)

/-- An exponent that is the whole rest of a numeral. -/
def exponent? : List Char → Option Int
  | [] => some 0
  | c :: rest =>
    if c == 'e' || c == 'E' then
      let (negative, digits) := takeSign rest
      match takeDigits digits with
      | ([], _) => none
      | (ds, []) => some (if negative then -(ofDigits ds : Int) else ofDigits ds)
      | _ => none
    else none

/-- A numeral that is the whole text. -/
def numeral? (cs : List Char) : Option Numeral :=
  let (negative, unsigned) := takeSign cs
  let (whole, afterWhole) := takeDigits unsigned
  let (fraction, rest) := match afterWhole with
    | '.' :: after => takeDigits after
    | after => ([], after)
  if whole.isEmpty && fraction.isEmpty then none
  else (exponent? rest).map fun e => ⟨negative, whole, fraction, e⟩

/-- The words that stand for a double. -/
def word? (cs : List Char) : Option Float :=
  let (negative, unsigned) := takeSign cs
  let name := String.ofList (unsigned.map Char.toLower)
  let sign (x : Float) : Float := if negative then -x else x
  if name == "inf" || name == "infinity" then some (sign (1.0 / 0.0))
  else if name == "nan" then some (0.0 / 0.0)
  else none

/-- A numeral or a word. -/
def float? (cs : List Char) : Option Float :=
  (word? cs).orElse fun _ => (numeral? cs).map Numeral.toFloat

/-- Puts the ASCII digit in place of a digit of another script. -/
def plainDigit (c : Char) : Char :=
  match Text.digitValue? c with
  | some d => Char.ofNat (48 + d)
  | none => c

/-- Drops the underscores, each of which has to stand between two digits. -/
def joinDigits : List Char → Option (List Char)
  | [] => some []
  | [c] => if c == '_' then none else some [c]
  | a :: '_' :: rest =>
    match rest with
    | b :: _ => if a.isDigit && b.isDigit then (joinDigits rest).map (a :: ·) else none
    | [] => none
  | a :: rest => if a == '_' then none else (joinDigits rest).map (a :: ·)

/-- A coordinate written as text. -/
def coordinate? (s : String) : Option Float :=
  (joinDigits (Text.trim (s.toList.map plainDigit))).bind float?

/-- Drops the underscores, none of which may stand at an end or beside another. -/
def dropUnderscores (cs : List Char) : Option (List Char) :=
  if cs.head? == some '_' || cs.getLast? == some '_'
    || (cs.zip (cs.drop 1)).any (· == ('_', '_')) then none
  else some (cs.filter (· != '_'))

/-- A number written as text in a record: with white space around it, or with underscores in it,
but not both. -/
def field? (s : String) : Option Float :=
  (float? (Text.trim s.toList)).orElse fun _ => (dropUnderscores s.toList).bind float?

/-- Why a text names no whole number. -/
inductive WholeFault where
  | unreadable
  | tooLong
deriving Repr, DecidableEq

/-- The most digits of a plain whole number. -/
def wholeLimit : Nat := 4300

/-- A whole number in plain writing: perhaps a minus, and digits with no zero before others.  A
text that starts with too many of them is too long, whatever follows. -/
def plainWhole? (cs : List Char) : Except WholeFault Int :=
  let (negative, unsigned) := match cs with
    | '-' :: rest => (true, rest)
    | _ => (false, cs)
  match takeDigits unsigned with
  | ([], _) => .error .unreadable
  | (0 :: ds, rest) => if ds.isEmpty && rest.isEmpty then .ok 0 else .error .unreadable
  | (ds, rest) =>
    if wholeLimit < ds.length then .error .tooLong
    else if rest.isEmpty then .ok (if negative then -(ofDigits ds : Int) else ofDigits ds)
    else .error .unreadable

/-- Drops a point with nothing but zeros after it, and at least one. -/
def dropZeroFraction (cs : List Char) : List Char :=
  let zeros := (cs.dropWhile (· != '.')).drop 1
  if !zeros.isEmpty && zeros.all (· == '0') then cs.takeWhile (· != '.') else cs

/-- Drops the zeros at the front, and underscores among them, up to another digit or a minus.
Where they are all there is, the last of them stands for all. -/
def dropZeros : List Char → Option (List Char)
  | [] => none
  | c :: rest =>
    if c == '0' then
      match rest.dropWhile fun d => d == '0' || d == '_' with
      | [] => some [rest.getLast?.getD '0']
      | d :: after => if d == '-' || d.isDigit then some (d :: after) else none
    else if c == '-' || c.isDigit then some (c :: rest) else none

/-- The plain writing of a whole number that has a plus, zeros before or behind it, or underscores.
A minus may stand before all or behind the zeros. -/
def plainWriting? (cs : List Char) : Option (List Char) :=
  let (sign, unsigned) := match cs with
    | '-' :: rest => (['-'], rest)
    | '+' :: '-' :: _ => ([], [])
    | '+' :: rest => ([], rest)
    | _ => ([], cs)
  ((dropZeros (dropZeroFraction unsigned)).bind dropUnderscores).map (sign ++ ·)

/-- A whole number written as text in a record.  The text as it stands is tried first, and only it
can be too long: what has to be cleaned of white space, signs or zeros is unreadable then. -/
def wholeField? (s : String) : Except WholeFault Int :=
  match plainWhole? s.toList with
  | .error .unreadable =>
    match (plainWriting? (Text.trim s.toList)).map plainWhole? with
    | some (.ok n) => .ok n
    | _ => .error .unreadable
  | answer => answer

end Number
end PromptCanvas
