import PromptCanvas.Number.Binary64

/-!
# Shortest decimals

The shortest decimal of a double is the one with the fewest digits among those that read back as
that double, the nearest of them if there are several, and of two equally near the one whose last
digit is even.

Reading back is membership in an interval: the reals that round to `m * 2 ^ q` lie within half a
unit of it, ends included exactly if `m` is even.  If a decimal of a given length lies in the
interval then so does one of the two that enclose the value, so only those two are tried.
-/

namespace PromptCanvas
namespace Number

/-- A positive decimal `digits * 10 ^ exponent`. -/
structure Decimal where
  digits : Nat
  exponent : Int
deriving Repr, DecidableEq

/-- A fraction with the ends of the interval of reals that read back as it: the numerators of the
value and of both ends, over one denominator. -/
structure Rounding where
  low : Nat
  value : Nat
  high : Nat
  den : Nat
  closed : Bool

/-- The interval of a positive double.  Below a power of two the next double is half as far. -/
def Rounding.of (p : Binary64) : Rounding :=
  let below := if p.significand == Nat.pow 2 52 && -1074 < p.exponent then 1 else 2
  let scale := if 2 ≤ p.exponent then Nat.pow 2 (p.exponent - 2).toNat else 1
  { low := (4 * p.significand - below) * scale
    value := 4 * p.significand * scale
    high := (4 * p.significand + 2) * scale
    den := if 2 ≤ p.exponent then 1 else Nat.pow 2 (2 - p.exponent).toNat
    closed := p.significand % 2 == 0 }

/-- The numerator and the denominator of `num / den` in units of `10 ^ e`. -/
def inUnits (num den : Nat) (e : Int) : Nat × Nat :=
  if 0 ≤ e then (num, den * Nat.pow 10 e.toNat) else (num * Nat.pow 10 (-e).toNat, den)

/-- `10 ^ e` is at most the value. -/
def Rounding.reaches (r : Rounding) (e : Int) : Bool :=
  let (n, d) := inUnits r.value r.den e
  d ≤ n

/-- The exponent of the leading decimal digit.  The binary logarithm gives it up to one. -/
def Rounding.leading (r : Rounding) : Int :=
  let guess := (((r.value.log2 : Int) - r.den.log2) * 30103).fdiv 100000
  if r.reaches (guess + 1) then guess + 1
  else if r.reaches guess then guess
  else guess - 1

/-- The decimal with `count` digits that reads back and is nearest to the value, if one does. -/
def Rounding.decimal? (r : Rounding) (count : Nat) : Option Decimal :=
  let e := r.leading - count + 1
  let (n, unit) := inUnits r.value r.den e
  let (low, _) := inUnits r.low r.den e
  let (high, _) := inUnits r.high r.den e
  let reads (d : Nat) : Bool :=
    if r.closed then low ≤ d * unit && d * unit ≤ high else low < d * unit && d * unit < high
  let d := n / unit
  let rest := n % unit
  let downFirst := 2 * rest < unit || (2 * rest == unit && d % 2 == 0)
  let (near, far) := if downFirst then (d, d + 1) else (d + 1, d)
  if reads near then some ⟨near, e⟩ else if reads far then some ⟨far, e⟩ else none

/-- Moves the zeros at the end of the digits into the exponent. -/
def Decimal.trim (d : Decimal) : Nat → Decimal
  | 0 => d
  | n + 1 =>
    if d.digits % 10 == 0 && d.digits != 0 then Decimal.trim ⟨d.digits / 10, d.exponent + 1⟩ n
    else d

/-- The shortest decimal of a positive double.  Seventeen digits always read back. -/
def shortest (p : Binary64) : Decimal :=
  let r := Rounding.of p
  match (List.range 17).findSome? fun n => r.decimal? (n + 1) with
  | some d => d.trim 17
  | none => ⟨p.significand, p.exponent⟩

end Number
end PromptCanvas
