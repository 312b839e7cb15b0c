import PromptCanvas.Number.Binary64

/-!
# Scalars

The plane of the canvas is written over any type of scalars.  The program runs on doubles; the
rationals are the exact reading of the same definitions, so a law of the plane can be stated
without rounding.
-/

namespace PromptCanvas

/-- What the plane needs of its coordinates.

`within dx dy r` says whether the vector `(dx, dy)` is at most `r` long; it is `none` where the
square of a finite coordinate is out of range. -/
class Scalar (α : Type) extends Add α, Sub α, Mul α, Div α, Neg α, LT α, LE α, BEq α,
    NatCast α where
  decideLt : DecidableLT α
  decideLe : DecidableLE α
  ofFloat : Float → α
  within : α → α → α → Option Bool

attribute [reducible, instance] Scalar.decideLt Scalar.decideLe

namespace Scalar

/-- The square of a double, unless a finite double has an infinite one. -/
def square? (x : Float) : Option Float :=
  let s := Float.pow x 2
  if s.isInf && x.isFinite then none else some s

/-- The length of a vector of doubles. -/
def length? (dx dy : Float) : Option Float :=
  (square? dx).bind fun a => (square? dy).map fun b => Float.pow (a + b) 0.5

instance : Scalar Float where
  decideLt := inferInstance
  decideLe := inferInstance
  natCast := Float.ofNat
  ofFloat x := x
  within dx dy r := (length? dx dy).map (· ≤ r)

instance : Scalar Rat where
  decideLt := inferInstance
  decideLe := inferInstance
  ofFloat := Number.toRat
  within dx dy r := some (0 ≤ r ∧ dx * dx + dy * dy ≤ r * r)

variable {α : Type} [Scalar α]

/-- The first of two unless the second is smaller. -/
def lesser (a b : α) : α := if b < a then b else a

/-- The first of two unless the second is greater. -/
def greater (a b : α) : α := if a < b then b else a

end Scalar

/-- A point of the plane; also the corner at which a node stands. -/
structure Point (α : Type) where
  x : α
  y : α
deriving Repr, BEq, DecidableEq

end PromptCanvas
