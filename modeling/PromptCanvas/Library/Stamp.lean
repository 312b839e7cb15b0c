import PromptCanvas.Number.Extended
import PromptCanvas.Record.Reading

/-!
# Stamps

Rows are stamped with the time at which they are written, as a text.  The column of stamps holds a
text that reads as a number as that number, and it sorts numbers before all other texts.
-/

namespace PromptCanvas

open Record

/-- A time as a clock tells it. -/
structure Moment where
  year : Nat
  month : Nat
  day : Nat
  hour : Nat
  minute : Nat
  second : Nat
  microsecond : Nat
deriving Repr, DecidableEq

namespace Moment

/-- The date and the time of day, a `T` between them.  A full second is written without a
fraction. -/
def text (m : Moment) : String :=
  let two := Number.padLeft 2
  Number.padLeft 4 m.year ++ "-" ++ two m.month ++ "-" ++ two m.day ++ "T" ++ two m.hour ++ ":"
    ++ two m.minute ++ ":" ++ two m.second
    ++ if m.microsecond == 0 then "" else "." ++ Number.padLeft 6 m.microsecond

/-- The time `n` seconds into the year 2024, which is meant to be in its January. -/
def counted (n : Nat) : Moment :=
  ⟨2024, 1, n / 86400 + 1, n / 3600 % 24, n / 60 % 60, n % 60, 0⟩

end Moment

/-- A stamp as its column holds it.  `below` and `above` are the infinite numbers. -/
inductive Stamp where
  | absent
  | below
  | number (q : Rat)
  | above
  | text (s : String)

namespace Stamp

/-- White space that may stand around a number in a column. -/
def isTableBlank (c : Char) : Bool := c == ' ' || (9 ≤ c.toNat && c.toNat ≤ 13)

/-- A double; what is no number is held as no stamp. -/
def ofFloat (x : Float) : Stamp :=
  if x.isFinite then .number (Number.toRat x)
  else if x.isNaN then .absent
  else if x < 0 then .below
  else .above

/-- A whole number, if it fits a signed word of 64 bits. -/
def ofInt? (n : Int) : Option Stamp :=
  if -(Reading.wordLimit : Int) ≤ n && n < Reading.wordLimit then some (.number n) else none

/-- A text that is a number is held as one: a whole number that fits a word as it is, any other as
the double that quick reading finds for it. -/
def ofText (s : String) : Stamp :=
  let cs := Text.stripBy isTableBlank s.toList
  match Number.numeral? cs with
  | none => .text s
  | some n =>
    let whole : Int := Number.ofDigits n.whole
    let isWhole := cs.all fun c => c.isDigit || c == '-' || c == '+'
    let held := if isWhole then ofInt? (if n.negative then -whole else whole) else none
    held.getD (ofFloat n.quick)

/-- The place of the numbers among the stamps. -/
def rank : Stamp → Nat
  | .absent => 0
  | .below => 1
  | .number _ => 2
  | .above => 3
  | .text _ => 4

def precedes : Stamp → Stamp → Bool
  | .number q, .number r => q < r
  | .text s, .text t => Text.isBefore s t
  | a, b => a.rank < b.rank

end Stamp
end PromptCanvas
