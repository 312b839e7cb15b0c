import PromptCanvas.Prompt.Compile
import PromptCanvas.View.Engine

/-!
# Rendering

Everything that is needed to draw one frame.
-/

namespace PromptCanvas

structure RenderNode (α : Type) where
  id : String
  kind : Kind
  label : String
  summary : String
  rect : Rect α
  screenRect : Rect α
  collapsed : Bool
  selected : Bool
  parent : Option String

/-- An edge with its ends on the screen. -/
structure RenderEdge (α : Type) where
  edge : Edge
  start : Point α
  finish : Point α

structure Frame (α : Type) where
  mode : String
  zoom : α
  pan : Point α
  nodes : List (RenderNode α)
  edges : List (RenderEdge α)
  /-- The edge that is being drawn. -/
  line : Option (Point α × Point α)
  selection : List String

namespace Engine

variable {α : Type} [Scalar α]

def renderNode (e : Engine α) (g : Graph α) (selection : List String) (n : Node α) (rect : Rect α) :
    RenderNode α :=
  { id := n.id, kind := n.kind, label := n.label.getD "", summary := g.summary n, rect,
    screenRect := e.viewport.rectToScreen rect, collapsed := n.collapsed,
    selected := selection.contains n.id, parent := n.parent }

/-- An edge between the nodes that stand in for its ends under the hidden ids, unless that is one
node. -/
def renderEdge? (e : Engine α) (m : Metrics α) (g : Graph α) (hidden : List String)
    (rects : Collision.Rects α) (edge : Edge) : Option (RenderEdge α) := do
  let source ← g.lookup? edge.source
  let target ← g.lookup? edge.target
  let start := g.anchor hidden source
  let finish := g.anchor hidden target
  if start.id == finish.id then none
  else
    let startRect ← Keyed.find? start.id rects
    let finishRect ← Keyed.find? finish.id rects
    return ⟨edge, e.viewport.toScreen (startRect.outputPin m),
      e.viewport.toScreen (finishRect.inputPin m)⟩

/-- The edge that is being drawn, from the pin where it began to the pointer. -/
def renderLine? (e : Engine α) (m : Metrics α) (rects : Collision.Rects α) :
    Option (Point α × Point α) :=
  match e.gesture with
  | some (.connecting anchor fromInput last) =>
    (Keyed.find? anchor rects).map fun r =>
      let start := if fromInput then r.inputPin m else r.outputPin m
      (e.viewport.toScreen start, e.viewport.toScreen last)
  | _ => none

def render (e : Engine α) (s : Store α) : Frame α :=
  let g := s.graph
  let hidden := g.hidden
  let rects := g.rects s.metrics e.overlay
  let selection := e.selection.filter fun i => (g.lookup? i).isSome
  { mode := e.mode, zoom := e.viewport.zoom, pan := e.viewport.pan, selection
    nodes := (g.besides hidden).filterMap fun n =>
      (Keyed.find? n.id rects).map (e.renderNode g selection n)
    edges := g.edges.filterMap (e.renderEdge? s.metrics g hidden rects)
    line := e.renderLine? s.metrics rects }

end Engine
end PromptCanvas
