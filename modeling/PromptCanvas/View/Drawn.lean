import PromptCanvas.View.Render

/-!
# Frames as JSON

Hits, outcomes and frames as they are handed to whoever draws them.  How a point and a rectangle are
written is left open: a request is answered with objects, a recording holds rows of numbers.
-/

namespace PromptCanvas

namespace Hit

def toJson (h : Hit) : Json := .obj [("kind", .str h.name), ("node_id", Json.ofText? h.id?)]

end Hit

namespace Outcome

def toJson (o : Outcome) : Json := .obj [
  ("action", .str o.name), ("edge_id", Json.ofText? o.edge?),
  ("moved", .arr (o.movedIds.map .str))]

end Outcome

/-- How points and rectangles are written. -/
structure PlaneStyle where
  point : Point Float → Json
  rect : Rect Float → Json

namespace PlaneStyle

/-- Objects with named coordinates. -/
def objects : PlaneStyle where
  point p := .obj [("x", .float p.x), ("y", .float p.y)]
  rect r := .obj [("x", .float r.x), ("y", .float r.y), ("width", .float r.width),
    ("height", .float r.height)]

/-- Rows of coordinates. -/
def rows : PlaneStyle where
  point p := .arr [.float p.x, .float p.y]
  rect r := .arr [.float r.x, .float r.y, .float r.width, .float r.height]

end PlaneStyle

namespace RenderNode

def toJson (style : PlaneStyle) (n : RenderNode Float) : Json := .obj [
  ("id", .str n.id), ("kind", .str n.kind.name), ("pipeline", .str n.kind.pipeline),
  ("label", .str n.label), ("summary", .str n.summary), ("rect", style.rect n.rect),
  ("screen_rect", style.rect n.screenRect), ("collapsed", .bool n.collapsed),
  ("selected", .bool n.selected), ("parent_id", Json.ofText? n.parent)]

end RenderNode

namespace RenderEdge

def toJson (style : PlaneStyle) (e : RenderEdge Float) : Json := .obj [
  ("id", .str e.edge.id), ("source", .str e.edge.source), ("target", .str e.edge.target),
  ("start", style.point e.start), ("end", style.point e.finish)]

end RenderEdge

namespace Frame

def toJson (style : PlaneStyle) (f : Frame Float) : Json :=
  let line : Json := match f.line with
    | some (start, finish) => .arr [style.point start, style.point finish]
    | none => .null
  .obj [
    ("mode", .str f.mode), ("zoom", .float f.zoom), ("pan", style.point f.pan),
    ("nodes", .arr (f.nodes.map (RenderNode.toJson style))),
    ("edges", .arr (f.edges.map (RenderEdge.toJson style))),
    ("connection_line", line), ("selection", .arr (f.selection.map .str))]

end Frame

/-- A prompt with its images. -/
def CompiledPrompt.toJson (c : CompiledPrompt) : Json := .obj [
  ("prompt", .str c.prompt), ("images", .arr (c.images.map ImageRef.toJson)),
  ("aspect_ratio", .str c.aspectRatio)]

end PromptCanvas
