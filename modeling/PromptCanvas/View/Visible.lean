import PromptCanvas.Graph.Search
import PromptCanvas.View.Collision

/-!
# What is visible

A node is hidden while it lies in a collapsed group, at any depth; its edges are then drawn from the
group that stands in for it.  An expanded group is drawn around its members.

While a gesture goes on, the positions that it would give are laid over those of the graph.  The
overlay remembers the order in which nodes entered it.
-/

namespace PromptCanvas

abbrev Overlay (α : Type) := List (String × Point α)

namespace Overlay

variable {α : Type}

/-- The position of a node under the overlay. -/
def positionOf (o : Overlay α) (n : Node α) : Point α := (Keyed.find? n.id o).getD n.position

/-- The positions of all nodes under the overlay. -/
def merged (o : Overlay α) (g : Graph α) : List (String × Point α) :=
  Keyed.ofList (g.nodes.map fun n => (n.id, o.positionOf n))

end Overlay

namespace Graph

variable {α : Type}

/-- The positions of all nodes. -/
def positions (g : Graph α) : List (String × Point α) :=
  Keyed.ofList (g.nodes.map fun n => (n.id, n.position))

def ids (g : Graph α) : List String := g.nodes.map Node.id

/-- Climbs from one parent to the next, up to a collapsed one.  Only pending ids are climbed to, so
a ring of parents is left after one round. -/
def climbsToCollapsed (g : Graph α) (pending : List String) (parent : String) : Bool :=
  if parent ∈ pending then
    match g.lookup? parent with
    | none => false
    | some n => n.collapsed || match n.parent with
      | none => false
      | some above => climbsToCollapsed g (Search.without parent pending) above
  else false
termination_by pending.length
decreasing_by exact Search.length_without_lt ‹_›

/-- A node inside a collapsed group. -/
def isCovered (g : Graph α) (n : Node α) : Bool :=
  n.parent.any fun p => g.climbsToCollapsed (Search.without n.id g.ids) p

/-- The ids of the nodes inside collapsed groups. -/
def hidden (g : Graph α) : List String := (g.nodes.filter g.isCovered).map Node.id

/-- The nodes that are left when some ids are hidden. -/
def besides (g : Graph α) (hidden : List String) : List (Node α) :=
  g.nodes.filter fun n => !hidden.contains n.id

def visible (g : Graph α) : List (Node α) := g.besides g.hidden

/-- Climbs from a hidden node to the one that is drawn in its place. -/
def standIn (g : Graph α) (hidden pending : List String) (n : Node α) : Node α :=
  if n.id ∈ pending then
    if hidden.contains n.id then
      match n.parent.bind g.lookup? with
      | some p => standIn g hidden (Search.without n.id pending) p
      | none => n
    else n
  else n
termination_by pending.length
decreasing_by exact Search.length_without_lt ‹_›

/-- The node itself, or the collapsed group that hides it, given the ids that are hidden. -/
def anchor (g : Graph α) (hidden : List String) (n : Node α) : Node α := g.standIn hidden g.ids n

variable [Scalar α]

/-- The rectangle that a node is drawn with. -/
def displayRect (m : Metrics α) (g : Graph α) (positions : List (String × Point α)) (n : Node α) :
    Rect α :=
  let rectOf (n : Node α) : Rect α := nodeRect m n ((Keyed.find? n.id positions).getD n.position)
  if !n.isGroup || n.collapsed then rectOf n
  else
    match (g.children n.id).map rectOf with
    | [] => rectOf n
    | first :: rest =>
      let box := Rect.bounding first rest
      let twice : α := ((2 : Nat) : α) * m.groupPadding
      ⟨box.x - m.groupPadding, box.y - m.groupPadding - m.groupHeader, box.width + twice,
        box.height + twice + m.groupHeader⟩

/-- The rectangles of all nodes under an overlay. -/
def rects (m : Metrics α) (g : Graph α) (o : Overlay α) : Collision.Rects α :=
  let positions := o.merged g
  Keyed.ofList (g.nodes.map fun n => (n.id, g.displayRect m positions n))

end Graph

namespace Rect

variable {α : Type} [Scalar α]

/-- Where edges leave a node. -/
def outputPin (m : Metrics α) (r : Rect α) : Point α := ⟨r.right, r.y + m.pinOffset⟩

/-- Where edges enter a node. -/
def inputPin (m : Metrics α) (r : Rect α) : Point α := ⟨r.x, r.y + m.pinOffset⟩

end Rect
end PromptCanvas
