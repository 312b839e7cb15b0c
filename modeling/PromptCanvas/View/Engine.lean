import PromptCanvas.Plane.Viewport
import PromptCanvas.Store.Edit
import PromptCanvas.View.Hit

/-!
# Gestures

The engine turns pointer events into changes of the view and of the store.  A gesture begins when
the pointer goes down and ends when it goes up or the gesture is cancelled.  What is dragged moves
on the overlay alone; the store hears of it once, at the end.
-/

namespace PromptCanvas

/-- A gesture that is going on. -/
inductive Gesture (α : Type) where
  | panning (last : Point α)
  /-- Nodes are dragged, from where they were when the pointer went down. -/
  | dragging (ids : List String) (start : Point α) (positions : List (String × Point α))
  /-- An edge is drawn from a pin of a node. -/
  | connecting (anchor : String) (fromInput : Bool) (last : Point α)
deriving Repr, DecidableEq

structure Engine (α : Type) where
  viewport : Viewport α
  overlay : Overlay α
  selection : List String
  gesture : Option (Gesture α)

/-- How a gesture ended. -/
inductive Outcome where
  | nothing
  | panned
  | moved (ids : List String)
  | connected (edge : String)
  | refused
  | abandoned
deriving Repr, DecidableEq

namespace Outcome

def name : Outcome → String
  | .nothing => "none"
  | .panned => "pan"
  | .moved _ => "move"
  | .connected _ => "connect"
  | .refused => "connect_rejected"
  | .abandoned => "cancelled"

def edge? : Outcome → Option String
  | .connected edge => some edge
  | _ => none

def movedIds : Outcome → List String
  | .moved ids => ids
  | _ => []

end Outcome

namespace Graph

variable {α : Type}

/-- The selected ids that the graph has, each once. -/
def present (g : Graph α) (selection : List String) : List String :=
  Search.newcomers (fun i => i) [] (selection.filter fun i => (g.node? i).isSome)

/-- The ids of the nodes that lie in one of some groups and are not among the ids of these. -/
def newMembers (g : Graph α) (ids : List String) : List String :=
  (Search.newcomers Node.id ids (g.nodes.filter fun n => n.parent.any ids.contains)).map Node.id

theorem length_remaining_newMembers (g : Graph α) (ids : List String) :
    (Search.remaining g.ids (ids ++ g.newMembers ids)).length + (g.newMembers ids).length ≤
      (Search.remaining g.ids ids).length := by
  have hids : ∀ n ∈ g.nodes.filter fun n => n.parent.any ids.contains, n.id ∈ g.ids :=
    fun n hn => List.mem_map_of_mem (List.mem_filter.mp hn).1
  have h := Search.length_newcomers Node.id ids hids
  rwa [← List.length_map Node.id] at h

/-- Pulls the members of some nodes in, then the members of these, until none is left out. -/
def withMembers (g : Graph α) (ids : List String) : List String :=
  if (g.newMembers ids).isEmpty then ids else g.withMembers (ids ++ g.newMembers ids)
termination_by (Search.remaining g.ids ids).length
decreasing_by
  rename_i hnew
  have := length_remaining_newMembers g ids
  rw [List.isEmpty_iff_length_eq_zero] at hnew
  omega

/-- The ids that go along when some nodes are dragged: these, their members, and so on. -/
def dragged (g : Graph α) (selection : List String) : List String :=
  g.withMembers (g.present selection)

variable [Scalar α]

/-- Where other nodes are pushed to when some have these positions.  Groups and hidden nodes neither
push nor are pushed. -/
def pushes (m : Metrics α) (g : Graph α) (ids : List String)
    (positions : List (String × Point α)) : List (String × Point α) :=
  let plain := g.visible.filter fun n => !n.isGroup
  let seeds := Keyed.ofList <| (plain.filter fun n => ids.contains n.id).map fun n =>
    (n.id, nodeRect m n ((Keyed.find? n.id positions).getD n.position))
  Collision.resolve m seeds (plain.filter fun n => !ids.contains n.id) positions

end Graph

namespace Engine

variable {α : Type} [Scalar α]

/-- An engine for a canvas of a size. -/
def ofSize (width height : α) : Engine α := ⟨.ofSize width height, [], [], none⟩

/-- The name of what is going on. -/
def mode (e : Engine α) : String :=
  match e.gesture with
  | none => "idle"
  | some (.panning _) => "panning"
  | some (.dragging ..) => "dragging"
  | some (.connecting ..) => "connecting"

/-- The ids of the nodes that are dragged. -/
def draggedIds (e : Engine α) : List String :=
  match e.gesture with
  | some (.dragging ids _ _) => ids
  | _ => []

/-- What lies under a point of the plane. -/
def hitTest? (e : Engine α) (s : Store α) (world : Point α) : Option Hit :=
  s.graph.hitTest? s.metrics e.overlay world

/-- What lies under a point of the screen. -/
def hitTestScreen? (e : Engine α) (s : Store α) (p : Point α) : Option Hit :=
  e.hitTest? s (e.viewport.toWorld p)

/-! ## The gesture -/

/-- Gives a gesture up; the overlay goes with it. -/
def cancel (e : Engine α) : Engine α := { e with overlay := [], gesture := none }

/-- The selection after a node was pressed: with shift the node is added or taken out, without it
the node alone is selected unless it is selected already. -/
def pressed (selection : List String) (id : String) (shift : Bool) : List String :=
  if shift then
    if selection.contains id then selection.erase id else selection ++ [id]
  else if selection.contains id then selection else [id]

/-- Begins to drag the selection with all members. -/
def beginDrag (e : Engine α) (g : Graph α) (id : String) (world : Point α) (shift : Bool) :
    Engine α :=
  let selection := pressed e.selection id shift
  let ids := g.dragged selection
  if ids.isEmpty then { e with selection }
  else
    let starts := Keyed.ofList <| (g.nodes.filter fun n => ids.contains n.id).map fun n =>
      (n.id, n.position)
    { e with selection, gesture := some (.dragging ids world starts) }

/-- The pointer goes down.  A gesture that is still going on is given up first.  Only the primary
button begins a gesture. -/
def pointerDown (e : Engine α) (s : Store α) (p : Point α) (primary shift : Bool) :
    Engine α × Option Hit :=
  let e := if e.gesture.isSome then e.cancel else e
  let world := e.viewport.toWorld p
  match e.hitTest? s world with
  | none => (e, none)
  | some hit =>
    if !primary then (e, some hit)
    else
      let begun : Engine α := match hit with
        | .outputPin id => { e with gesture := some (.connecting id false world) }
        | .inputPin id => { e with gesture := some (.connecting id true world) }
        | .node id | .group id => e.beginDrag s.graph id world shift
        | .canvas => if shift then e else { e with selection := [], gesture := some (.panning p) }
      (begun, some hit)

/-- The overlay of a drag whose pointer is at a point of the plane: the dragged nodes, and what they
push. -/
def dragOverlay (s : Store α) (ids : List String) (start : Point α)
    (positions : List (String × Point α)) (world : Point α) : Overlay α :=
  let delta := world.minus start
  let moved := positions.map fun (id, p) => (id, p.offset delta.x delta.y)
  let all := Keyed.update s.graph.positions moved
  Keyed.update moved (s.graph.pushes s.metrics ids all)

/-- The pointer moves. -/
def pointerMove (e : Engine α) (s : Store α) (p : Point α) : Engine α :=
  match e.gesture with
  | none => e
  | some (.panning last) =>
    { e with
      viewport := e.viewport.panBy (p.x - last.x) (p.y - last.y)
      gesture := some (.panning p) }
  | some (.dragging ids start positions) =>
    { e with overlay := dragOverlay s ids start positions (e.viewport.toWorld p) }
  | some (.connecting anchor fromInput _) =>
    { e with gesture := some (.connecting anchor fromInput (e.viewport.toWorld p)) }

/-- Ends the drawing of an edge on what was hit. -/
def finishConnecting (s : Store α) (anchor : String) (fromInput : Bool) (hit : Hit) :
    Store α × Outcome :=
  match hit.id? with
  | none => (s, .abandoned)
  | some id =>
    if id == anchor then (s, .abandoned)
    else
      let (s', edge) := if fromInput then s.addEdge id anchor else s.addEdge anchor id
      match edge with
      | some edge => (s', .connected edge)
      | none => (s', .refused)

/-- The pointer goes up, which ends the gesture; `none` where a distance is out of range. -/
def pointerUp (e : Engine α) (s : Store α) (p : Point α) : Engine α × Store α × Option Outcome :=
  let ended := { e with gesture := none }
  match e.gesture with
  | none => (ended, s, some .nothing)
  | some (.panning _) => (ended, s, some .panned)
  | some (.dragging ..) =>
    let (s', done) := s.commitPositions e.overlay
    ({ ended with overlay := [] }, s',
      some (if done then .moved (Keyed.keys e.overlay) else .nothing))
  | some (.connecting anchor fromInput _) =>
    match ended.hitTestScreen? s p with
    | none => (ended, s, none)
    | some hit =>
      let (s', outcome) := finishConnecting s anchor fromInput hit
      (ended, s', some outcome)

/-! ## The view -/

def wheel (e : Engine α) (m : Metrics α) (p : Point α) (delta : α) (pinch : Bool) : Engine α :=
  { e with viewport := e.viewport.wheel m p delta pinch }

def zoomIn (e : Engine α) (m : Metrics α) : Engine α :=
  { e with viewport := e.viewport.zoomIn m }

def zoomOut (e : Engine α) (m : Metrics α) : Engine α :=
  { e with viewport := e.viewport.zoomOut m }

def resetView (e : Engine α) : Engine α := { e with viewport := e.viewport.reset }

def resize (e : Engine α) (width height : α) : Engine α :=
  { e with viewport := e.viewport.resize width height }

/-! ## Nodes -/

/-- Selects some ids, each once. -/
def select (e : Engine α) (ids : List String) : Engine α := { e with selection := ids.eraseDups }

/-- Deletes the selected nodes; what could not be deleted stays selected. -/
def deleteSelection (e : Engine α) (s : Store α) : Engine α × Store α × List String :=
  let (s', deleted) := s.deleteNodes e.selection
  ({ e with selection := e.selection.filter fun i => !deleted.contains i }, s', deleted)

end Engine

namespace Store

variable {α : Type} [Scalar α]

/-- Collapses an expanded node or expands a collapsed one.  A node that grows pushes others aside in
the same change. -/
def toggleCollapsed (s : Store α) (id : String) : Store α × Bool :=
  match s.graph.node? id with
  | none => (s, false)
  | some n =>
    let pushed :=
      if n.collapsed && !n.isGroup then
        let grown := s.graph.mapNode id fun n => { n with collapsed := false }
        grown.pushes s.metrics [id] grown.positions
      else []
    ((s.setCollapsed id (!n.collapsed) pushed).1, true)

end Store
end PromptCanvas
