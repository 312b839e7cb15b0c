import PromptCanvas.Plane.Metrics
import PromptCanvas.Plane.Rect

/-!
# The viewport

The plane is seen through a viewport: a point of the plane is drawn at `point * zoom + pan`.
Zooming about a point of the screen keeps the point of the plane that is drawn there.
-/

namespace PromptCanvas

structure Viewport (α : Type) where
  pan : Point α
  zoom : α
  width : α
  height : α

namespace Viewport

variable {α : Type} [Scalar α]

/-- A canvas of a size, seen as it is. -/
def ofSize (width height : α) : Viewport α :=
  { pan := ⟨((0 : Nat) : α), ((0 : Nat) : α)⟩, zoom := ((1 : Nat) : α), width, height }

/-- All of the plane is drawn at one point, so no point of the screen leads back to it. -/
def isFlat (v : Viewport α) : Bool := v.zoom == ((0 : Nat) : α)

/-- The point of the plane that is drawn at a point of the screen, unless the viewport is flat. -/
def toWorld (v : Viewport α) (p : Point α) : Point α :=
  ⟨(p.x - v.pan.x) / v.zoom, (p.y - v.pan.y) / v.zoom⟩

def toScreen (v : Viewport α) (p : Point α) : Point α :=
  ⟨p.x * v.zoom + v.pan.x, p.y * v.zoom + v.pan.y⟩

def rectToScreen (v : Viewport α) (r : Rect α) : Rect α :=
  let corner := v.toScreen r.corner
  ⟨corner.x, corner.y, r.width * v.zoom, r.height * v.zoom⟩

/-- The zoom nearest to the wanted one that is allowed. -/
def clampZoom (m : Metrics α) (zoom : α) : α :=
  Scalar.lesser (Scalar.greater zoom m.minZoom) m.maxZoom

def panBy (v : Viewport α) (dx dy : α) : Viewport α := { v with pan := v.pan.offset dx dy }

/-- Zooms about a point of the screen. -/
def zoomAt (m : Metrics α) (v : Viewport α) (p : Point α) (zoom : α) : Viewport α :=
  let zoom := clampZoom m zoom
  let world := v.toWorld p
  { v with zoom, pan := ⟨p.x - world.x * zoom, p.y - world.y * zoom⟩ }

/-- The change of the zoom for one unit of a pinch, as a share of the zoom. -/
def pinchFactor : α := ((1 : Nat) : α) / ((20 : Nat) : α)

/-- Turns the wheel over a point of the screen; turning it up zooms in. -/
def wheel (m : Metrics α) (v : Viewport α) (p : Point α) (delta : α) (pinch : Bool) : Viewport α :=
  let factor := if pinch then pinchFactor else m.wheelFactor
  zoomAt m v p (v.zoom + -delta * factor * v.zoom)

def center (v : Viewport α) : Point α :=
  ⟨v.width / ((2 : Nat) : α), v.height / ((2 : Nat) : α)⟩

def zoomIn (m : Metrics α) (v : Viewport α) : Viewport α :=
  zoomAt m v v.center (v.zoom + m.zoomStep)

def zoomOut (m : Metrics α) (v : Viewport α) : Viewport α :=
  zoomAt m v v.center (v.zoom - m.zoomStep)

/-- Back to no pan and no zoom; the size stays. -/
def reset (v : Viewport α) : Viewport α := ofSize v.width v.height

def resize (v : Viewport α) (width height : α) : Viewport α := { v with width, height }

end Viewport
end PromptCanvas
