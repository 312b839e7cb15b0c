import PromptCanvas.Number.Reader

/-!
# Quick reading in extended precision

A numeral can be read without long arithmetic: only as many leading digits are kept as fit a signed
word of 64 bits, and they are scaled by a power of ten in numbers of 64 significant bits.  The
double that `Numeral.quick` finds is near the numeral, but not always the nearest: digits are lost,
and each step rounds.
-/

namespace PromptCanvas
namespace Number

/-! ## Numbers of 64 significant bits -/

/-- The number `significand * 2 ^ exponent`, with at most 64 significant bits. -/
structure Extended where
  significand : Nat
  exponent : Int
deriving Repr, DecidableEq

namespace Extended

def ofNat (n : Nat) : Extended := ⟨n, 0⟩

/-- The number of 64 significant bits nearest to `num / den * 2 ^ shift`, for `0 < num` and
`0 < den`; a tie goes to the even significand. -/
def nearest (num den : Nat) (shift : Int) : Extended :=
  let guess : Int := (num.log2 : Int) - den.log2 - 64
  let q := if Nat.pow 2 64 ≤ (scaledDivMod num den guess).1 then guess + 1 else guess
  let (m, rest, unit) := scaledDivMod num den q
  let up := unit < 2 * rest || (2 * rest == unit && m % 2 == 1)
  ⟨m + up.toNat, q + shift⟩

def mul (x y : Extended) : Extended :=
  nearest (x.significand * y.significand) 1 (x.exponent + y.exponent)

def div (x y : Extended) : Extended :=
  nearest x.significand y.significand (x.exponent - y.exponent)

/-- The double nearest to a number. -/
def toFloat (x : Extended) : Float :=
  if 0 ≤ x.exponent then ofRatio false (x.significand * Nat.pow 2 x.exponent.toNat) 1
  else ofRatio false x.significand (Nat.pow 2 (-x.exponent).toNat)

/-- `r * x ^ n`, by squaring. -/
def mulPow (r x : Extended) (n : Nat) : Extended :=
  let r := if n % 2 == 1 then r.mul x else r
  if h : n < 2 then r else mulPow r (x.mul x) (n / 2)
termination_by n
decreasing_by omega

/-- A power of ten. -/
def tenPow (n : Nat) : Extended := mulPow (ofNat 1) (ofNat 10) n

end Extended

/-! ## Leading digits -/

/-- No further digit is added to a number of this size. -/
def keptLimit : Nat := 922337203685477579

/-- Adds digits to a number as long as they are kept; says how many were. -/
def keepDigits (s : Nat) : List Nat → Nat × Nat
  | [] => (s, 0)
  | d :: ds =>
    if keptLimit ≤ s then (s, 0)
    else let (s', kept) := keepDigits (10 * s + d) ds; (s', kept + 1)

/-- Takes tens from the exponent into the number as far as there is room for them. -/
def takeTens (s : Nat) : Nat → Nat × Nat
  | 0 => (s, 0)
  | e + 1 => if keptLimit < s then (s, e + 1) else takeTens (10 * s) e

/-- Takes tens out of the number against a negative exponent. -/
def dropTens (s : Nat) : Nat → Nat × Nat
  | 0 => (s, 0)
  | e + 1 => if s % 10 == 0 then dropTens (s / 10) e else (s, e + 1)

/-- An exponent of more than five digits counts as this one. -/
def farExponent : Nat := 10000

def cutExponent (e : Int) : Int :=
  if e.natAbs < 100000 then e else if e < 0 then -(farExponent : Int) else farExponent

/-! ## Scaling -/

/-- The largest power of ten that is a double. -/
def largestTen : Float := 1.0e308

/-- `s * 10 ^ e`, past the largest power of ten in two steps. -/
def scaleUp (s e : Nat) : Float :=
  let s := Extended.ofNat s
  if e < 308 then (s.mul (.tenPow e)).toFloat
  else if e < 342 then (s.mul (.tenPow (e - 308))).toFloat * largestTen
  else 1.0 / 0.0

/-- `s / 10 ^ e`, past the largest power of ten in two steps. -/
def scaleDown (s e : Nat) : Float :=
  let s := Extended.ofNat s
  if e < 308 then (s.div (.tenPow e)).toFloat
  else if e < 342 then (s.div (.tenPow (e - 308))).toFloat / largestTen
  else 0.0

/-- The double that quick reading finds for a numeral. -/
def Numeral.quick (n : Numeral) : Float :=
  let (whole, kept) := keepDigits 0 n.whole
  let (s, places) := keepDigits whole n.fraction
  let e := cutExponent n.exponent + (n.whole.length - kept : Nat) - places
  let size :=
    if s == 0 then 0.0
    else if 0 ≤ e then let (s, e) := takeTens s e.toNat; scaleUp s e
    else let (s, e) := dropTens s (-e).toNat; scaleDown s e
  if n.negative then -size else size

end Number
end PromptCanvas
