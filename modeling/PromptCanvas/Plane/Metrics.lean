import PromptCanvas.Number.Scalar

/-!
# Metrics of the canvas

The sizes and limits that the canvas is drawn and edited with.
-/

namespace PromptCanvas

structure Metrics (α : Type) where
  nodeWidth : α
  collapsedHeight : α
  expandedHeight : α
  /-- The gap between a node and one that it pushes. -/
  collisionGap : α
  /-- The longest chain of pushes. -/
  maxPushDepth : Nat
  pinRadius : α
  /-- How far below its upper edge a node has its pins. -/
  pinOffset : α
  groupPadding : α
  /-- The height of the strip above the members of a group. -/
  groupHeader : α
  minZoom : α
  maxZoom : α
  zoomStep : α
  /-- The change of the zoom for one unit of the wheel, as a share of the zoom. -/
  wheelFactor : α

/-- The height of a node. -/
def Metrics.height {α : Type} (m : Metrics α) (collapsed : Bool) : α :=
  if collapsed then m.collapsedHeight else m.expandedHeight

end PromptCanvas
