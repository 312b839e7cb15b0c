import PromptCanvas.Number.Scalar

/-!
# Points and rectangles

Rectangles are upright and known by their upper left corner and their size.  The vertical axis
points down.
-/

namespace PromptCanvas

variable {α : Type} [Scalar α]

namespace Point

/-- The point moved by a vector. -/
def offset (p : Point α) (dx dy : α) : Point α := ⟨p.x + dx, p.y + dy⟩

def minus (p q : Point α) : Point α := ⟨p.x - q.x, p.y - q.y⟩

/-- A point lies within a radius of another; `none` where the distance is out of range. -/
def near? (p q : Point α) (radius : α) : Option Bool :=
  Scalar.within (p.x - q.x) (p.y - q.y) radius

/-- The distance of two points of doubles; `none` where it is out of range. -/
def distance? (p q : Point Float) : Option Float := Scalar.length? (p.x - q.x) (p.y - q.y)

end Point

structure Rect (α : Type) where
  x : α
  y : α
  width : α
  height : α
deriving Repr, BEq, DecidableEq

namespace Rect

def right (r : Rect α) : α := r.x + r.width

def bottom (r : Rect α) : α := r.y + r.height

/-- A point lies in the rectangle or on its border. -/
def contains (r : Rect α) (p : Point α) : Bool :=
  r.x ≤ p.x && p.x ≤ r.right && r.y ≤ p.y && p.y ≤ r.bottom

/-- The interiors meet; rectangles that only touch do not overlap. -/
def overlaps (r q : Rect α) : Bool :=
  r.x < q.right && q.x < r.right && r.y < q.bottom && q.y < r.bottom

def movedTo (r : Rect α) (x y : α) : Rect α := { r with x, y }

/-- The corner of the rectangle. -/
def corner (r : Rect α) : Point α := ⟨r.x, r.y⟩

/-- The smallest rectangle around a row of rectangles, the first of which is given by itself. -/
def bounding (first : Rect α) (rest : List (Rect α)) : Rect α :=
  let left := rest.foldl (fun a r => Scalar.lesser a r.x) first.x
  let top := rest.foldl (fun a r => Scalar.lesser a r.y) first.y
  let right := rest.foldl (fun a r => Scalar.greater a r.right) first.right
  let bottom := rest.foldl (fun a r => Scalar.greater a r.bottom) first.bottom
  ⟨left, top, right - left, bottom - top⟩

end Rect
end PromptCanvas
