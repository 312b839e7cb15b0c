import PromptCanvas.Number.Shortest

/-!
# Written numbers

How a double is written: which exponents are written out, how an exponent is marked, and what
stands for the values that are no number.  Coordinates and identifiers share one style.
-/

namespace PromptCanvas
namespace Number

/-- The decisions of a number format.  A number whose leading digit has an exponent from
`positionalLow` to `positionalHigh` is written without an exponent. -/
structure Style where
  positionalLow : Int
  positionalHigh : Int
  exponentWidth : Nat
  nan : String
  infinity : String
deriving Repr

/-- From 0.0001 up to, not including, 1e16 a number is written out, always with a point; beyond
that the exponent has a sign and at least two digits. -/
def plainStyle : Style := ⟨-4, 15, 2, "nan", "inf"⟩

/-- Decimal digits, filled with zeros on the left to a width. -/
def padLeft (width n : Nat) : String :=
  let digits := toString n
  String.ofList (List.replicate (width - digits.length) '0') ++ digits

/-- A decimal written by a style, without its sign. -/
def Style.decimal (s : Style) (d : Decimal) : String :=
  let digits := (toString d.digits).toList
  let leading := d.exponent + digits.length - 1
  if s.positionalLow ≤ leading && leading ≤ s.positionalHigh then
    if 0 ≤ d.exponent then
      String.ofList (digits ++ List.replicate d.exponent.toNat '0') ++ ".0"
    else if 0 ≤ leading then
      let whole := leading.toNat + 1
      String.ofList (digits.take whole) ++ "." ++ String.ofList (digits.drop whole)
    else
      "0." ++ String.ofList (List.replicate (-leading - 1).toNat '0' ++ digits)
  else
    let tail := digits.drop 1
    let point := if tail.isEmpty then "" else "." ++ String.ofList tail
    let mark := if leading < 0 then "e-" else "e+"
    String.ofList (digits.take 1) ++ point ++ mark ++ padLeft s.exponentWidth leading.natAbs

/-- A double written by a style; zero keeps its sign. -/
def Style.text (s : Style) (x : Float) : String :=
  match parts? x with
  | none => if x.isNaN then s.nan else if x < 0 then "-" ++ s.infinity else s.infinity
  | some p =>
    let sign := if p.negative then "-" else ""
    if p.significand == 0 then sign ++ "0.0" else sign ++ s.decimal (shortest p)

/-- A double in the plain style. -/
def text (x : Float) : String := plainStyle.text x

end Number
end PromptCanvas
