/-!
# Binary64 in exact arithmetic

A finite double is `±m * 2 ^ q` with natural `m` and integer `q`.  `parts?` takes a double apart;
`ofRatio` goes the other way, from any fraction to the nearest double, a tie going to the even
significand.  Both work on the bits alone, so nothing is rounded twice.
-/

namespace PromptCanvas
namespace Number

/-- Sign, significand and exponent of a double: the value is `±significand * 2 ^ exponent`. -/
structure Binary64 where
  negative : Bool
  significand : Nat
  exponent : Int
deriving Repr, DecidableEq

/-- The parts of a finite double; `none` for an infinity or a NaN. -/
def parts? (x : Float) : Option Binary64 :=
  let bits : Nat := x.toBits.toNat
  let field : Nat := bits / Nat.pow 2 52 % 2048
  let fraction : Nat := bits % Nat.pow 2 52
  if field == 2047 then none
  else if field == 0 then some ⟨decide (Nat.pow 2 63 ≤ bits), fraction, -1074⟩
  else some ⟨decide (Nat.pow 2 63 ≤ bits), fraction + Nat.pow 2 52, (field : Int) - 1075⟩

/-- The exact value of a finite double; zero for an infinity or a NaN. -/
def toRat (x : Float) : Rat :=
  match parts? x with
  | none => 0
  | some p =>
    let magnitude : Rat :=
      if 0 ≤ p.exponent then (p.significand * Nat.pow 2 p.exponent.toNat : Nat)
      else mkRat p.significand (Nat.pow 2 (-p.exponent).toNat)
    if p.negative then -magnitude else magnitude

/-- `num / (den * 2 ^ q)` as a quotient and a remainder, with the divisor that was used. -/
def scaledDivMod (num den : Nat) (q : Int) : Nat × Nat × Nat :=
  if 0 ≤ q then
    let d := den * Nat.pow 2 q.toNat
    (num / d, num % d, d)
  else
    let n := num * Nat.pow 2 (-q).toNat
    (n / den, n % den, den)

/-- The bits of the double nearest to `num / den`, for `0 < num` and `0 < den`.

The exponent is chosen so that the quotient has 53 bits, or is the least exponent there is; a
quotient that rounds up to 54 bits carries into the exponent field by itself, and a field that
overflows is cut to infinity. -/
def nearestBits (num den : Nat) : Nat :=
  let guess : Int := (num.log2 : Int) - den.log2 - 53
  let low := max guess (-1074)
  let q := if Nat.pow 2 53 ≤ (scaledDivMod num den low).1 then low + 1 else low
  let (m, rest, unit) := scaledDivMod num den q
  let up := unit < 2 * rest || (2 * rest == unit && m % 2 == 1)
  min ((q + 1074).toNat * Nat.pow 2 52 + m + up.toNat) (2047 * Nat.pow 2 52)

/-- The double nearest to `num / den`; infinite where no finite double is near enough. -/
def ofRatio (negative : Bool) (num den : Nat) : Float :=
  let bits := if num == 0 || den == 0 then 0 else nearestBits num den
  Float.ofBits (UInt64.ofNat (if negative then bits + Nat.pow 2 63 else bits))

/-- The double nearest to an integer, unless that is infinite. -/
def ofInt? (n : Int) : Option Float :=
  let x := ofRatio (n < 0) n.natAbs 1
  if x.isFinite then some x else none

/-- The double nearest to `digits * 10 ^ exponent`, where `digits` has `count` digits.  A value
beyond every double, or below every double, is settled by its order of magnitude. -/
def ofDecimal (negative : Bool) (digits count : Nat) (exponent : Int) : Float :=
  if digits == 0 then ofRatio negative 0 1
  else if 400 < exponent + count then ofRatio negative (Nat.pow 2 1100) 1
  else if exponent + count < -400 then ofRatio negative 0 1
  else if 0 ≤ exponent then ofRatio negative (digits * Nat.pow 10 exponent.toNat) 1
  else ofRatio negative digits (Nat.pow 10 (-exponent).toNat)

end Number
end PromptCanvas
