import PromptCanvas.Store.Connection

/-!
# Editing

The changes that gestures and requests make.  Each answers with the store after it, which is the
store before it where the change is refused.
-/

namespace PromptCanvas
namespace Store

variable {α : Type} [Scalar α]

/-! ## Nodes -/

/-- Adds a node with starting attributes.  There is always one output, so no other is added. -/
def addNode (s : Store α) (kind : Kind) (position : Point α) : Store α × Option String :=
  if kind == .output then (s, none)
  else
    let id := s.ids.peek kind.name
    let node : Node α :=
      { id, kind, attributes := kind.starting, position, collapsed := true, parent := none }
    let moved := { s with ids := s.ids.advance }
    (moved.commit { s.graph with nodes := s.graph.nodes ++ [node] } s.links, some id)

/-- Lays changes over the attributes of a node.  The answer says whether there is such a node. -/
def updateAttributes (s : Store α) (id : String) (changes : List (String × Json)) :
    Store α × Except AttributeError Bool :=
  match s.graph.node? id with
  | none => (s, .ok false)
  | some n =>
    match n.kind.patchAttributes n.attributes changes with
    | .error e => (s, .error e)
    | .ok attributes =>
      (s.commit (s.graph.mapNode id fun _ => { n with attributes }) s.links, .ok true)

/-- The ids, of those asked for, that may be deleted: outputs stay. -/
def deletable (s : Store α) (ids : List String) : List String :=
  (s.graph.nodes.filter fun n => ids.contains n.id && !n.isOutput).map Node.id

/-- A node that has lost its group if that is among the ids. -/
def orphanedBy (ids : List String) (n : Node α) : Node α :=
  match n.parent with
  | some p => if ids.contains p then { n with parent := none } else n
  | none => n

/-- Deletes nodes with every edge that touches them, and says which.  Members of a deleted group
stay.  If no output is left, a fresh one is added. -/
def deleteNodes (s : Store α) (ids : List String) : Store α × List String :=
  let doomed := s.deletable ids
  if doomed.isEmpty then (s, [])
  else
    let kept := (s.graph.nodes.filter fun n => !doomed.contains n.id).map (orphanedBy doomed)
    let edges := s.graph.edges.filter fun e =>
      !doomed.contains e.source && !doomed.contains e.target
    if kept.any Node.isOutput then (s.commit ⟨kept, edges⟩ (.ofEdges edges), doomed)
    else
      let moved := { s with ids := s.ids.advance }
      (moved.commit ⟨kept ++ [freshOutput s.ids], edges⟩ (.ofEdges edges), doomed)

/-- A node at the position given for it. -/
def placedBy (positions : List (String × Point α)) (n : Node α) : Node α :=
  match Keyed.find? n.id positions with
  | some p => { n with position := p }
  | none => n

/-- The positions move a node. -/
def moves (positions : List (String × Point α)) (n : Node α) : Bool :=
  match Keyed.find? n.id positions with
  | some p => !(p == n.position)
  | none => false

/-- Writes many positions as one change; positions of unknown ids are left out.  Nothing happens if
no node moves. -/
def commitPositions (s : Store α) (positions : List (String × Point α)) : Store α × Bool :=
  if s.graph.nodes.any (moves positions) then
    let place (n : Node α) : Node α := if moves positions n then placedBy positions n else n
    (s.commit { s.graph with nodes := s.graph.nodes.map place } s.links, true)
  else (s, false)

/-- Collapses or expands a node, and writes positions in the same change. -/
def setCollapsed (s : Store α) (id : String) (collapsed : Bool)
    (positions : List (String × Point α)) : Store α × Bool :=
  match s.graph.node? id with
  | none => (s, false)
  | some n =>
    if n.collapsed == collapsed then (s, false)
    else
      let flagged := s.graph.mapNode id fun n => { n with collapsed }
      (s.commit { flagged with nodes := flagged.nodes.map (placedBy positions) } s.links, true)

/-- A node may be put into the group with an id: another node, which is a group. -/
def usableGroup (s : Store α) (id group : String) : Bool :=
  group != id && ((s.graph.node? group).map Node.isGroup).getD false

/-- Puts a node into a group, or takes it out. -/
def setParent (s : Store α) (id : String) (group : Option String) : Store α × Bool :=
  match s.graph.node? id with
  | none => (s, false)
  | some n =>
    if (group.map (s.usableGroup id)).getD true && n.parent != group then
      (s.commit (s.graph.mapNode id fun _ => { n with parent := group }) s.links, true)
    else (s, false)

/-- Goes back to one fresh output. -/
def reset (s : Store α) : Store α :=
  { s with ids := s.ids.advance }.commit ⟨[freshOutput s.ids], []⟩ []

/-! ## Edges -/

/-- The stem of the ids of edges. -/
def edgeStem : String := "edge"

/-- Connects two nodes if nothing is against it. -/
def addEdge (s : Store α) (source target : String) : Store α × Option String :=
  match s.refusal? source target with
  | some _ => (s, none)
  | none =>
    let id := s.ids.peek edgeStem
    let moved := { s with ids := s.ids.advance }
    (moved.commit { s.graph with edges := s.graph.edges ++ [⟨id, source, target⟩] }
      (s.links.add source target), some id)

/-- Removes the edges with an id. -/
def removeEdge (s : Store α) (id : String) : Store α × Bool :=
  if s.graph.edges.any (·.id == id) then
    let edges := s.graph.edges.filter fun e => !(e.id == id)
    (s.commit { s.graph with edges } (.ofEdges edges), true)
  else (s, false)

/-! ## Connected nodes -/

/-- The space between a node and one that is added beside it. -/
def connectedSpacing : α := ((80 : Nat) : α)

/-- Where a node goes that is added beside another: to its left if it feeds the other, else to its
right, and below those that are linked there already. -/
def besidePosition (s : Store α) (anchor : Node α) (feedsAnchor : Bool) : Point α :=
  let siblings := s.graph.edges.filter fun e =>
    if feedsAnchor then e.target == anchor.id else e.source == anchor.id
  let across := s.metrics.nodeWidth + connectedSpacing
  let down := s.metrics.collapsedHeight + s.metrics.collisionGap
  ⟨anchor.position.x + (if feedsAnchor then -across else across),
    anchor.position.y + (siblings.length : α) * down⟩

/-- Adds a node beside another and links the two in the direction that their kinds allow; they stay
unlinked if neither is allowed. -/
def addConnected (s : Store α) (anchorId : String) (kind : Kind) : Store α × Option String :=
  match s.graph.node? anchorId with
  | none => (s, none)
  | some anchor =>
    if kind == .output then (s, none)
    else
      let feedsAnchor := kind.canFeed anchor.kind
      let id := s.ids.peek kind.name
      let node : Node α :=
        { id, kind, attributes := kind.starting, position := s.besidePosition anchor feedsAnchor,
          collapsed := true, parent := none }
      let nodes := s.graph.nodes ++ [node]
      let named := { s with ids := s.ids.advance }
      let link (source target : String) : Store α × Option String :=
        let edges := s.graph.edges ++ [⟨named.ids.peek edgeStem, source, target⟩]
        ({ named with ids := named.ids.advance }.commit ⟨nodes, edges⟩ (.ofEdges edges), some id)
      if feedsAnchor then link id anchorId
      else if anchor.kind.canFeed kind then link anchorId id
      else (named.commit { s.graph with nodes } (.ofEdges s.graph.edges), some id)

end Store
end PromptCanvas
