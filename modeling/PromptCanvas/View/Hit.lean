import PromptCanvas.View.Visible

/-!
# Hit tests

What lies under a point of the plane.  Pins come before bodies, plain nodes before groups, and what
is drawn later before what is drawn earlier.
-/

namespace PromptCanvas

inductive Hit where
  | outputPin (id : String)
  | inputPin (id : String)
  | node (id : String)
  | group (id : String)
  | canvas
deriving Repr, DecidableEq

namespace Hit

def name : Hit → String
  | .outputPin _ => "output_port"
  | .inputPin _ => "input_port"
  | .node _ => "node"
  | .group _ => "group"
  | .canvas => "canvas"

/-- The node that was hit. -/
def id? : Hit → Option String
  | .outputPin id | .inputPin id | .node id | .group id => some id
  | .canvas => none

end Hit

namespace Graph

variable {α : Type} [Scalar α]

/-- The pin of a node within reach of a point; its output before its input. -/
def pinAt? (m : Metrics α) (p : Point α) (n : Node α) (r : Rect α) : Option (Option Hit) := do
  let output ← if n.isOutput then some false else p.near? (r.outputPin m) m.pinRadius
  if output then return some (.outputPin n.id)
  let input ← p.near? (r.inputPin m) m.pinRadius
  return if input then some (.inputPin n.id) else none

/-- The first pin within reach, among nodes with their rectangles. -/
def firstPin? (m : Metrics α) (p : Point α) : List (Node α × Rect α) → Option (Option Hit)
  | [] => some none
  | (n, r) :: rest => do
    match ← pinAt? m p n r with
    | some hit => return some hit
    | none => firstPin? m p rest

/-- What lies under a point; `none` where a distance is out of range. -/
def hitTest? (m : Metrics α) (g : Graph α) (o : Overlay α) (p : Point α) : Option Hit := do
  let rects := g.rects m o
  let drawn := g.visible.reverse.filterMap fun n => (Keyed.find? n.id rects).map fun r => (n, r)
  match ← firstPin? m p drawn with
  | some hit => return hit
  | none =>
    match drawn.find? fun (n, r) => !n.isGroup && r.contains p with
    | some (n, _) => return .node n.id
    | none =>
      match drawn.find? fun (n, r) => n.isGroup && r.contains p with
      | some (n, _) => return .group n.id
      | none => return .canvas

end Graph
end PromptCanvas
