import PromptCanvas.Node.Attributes
import PromptCanvas.Number.Scalar

/-!
# Graphs

A graph is a row of nodes and a row of edges, both in the order in which they came.  The order of
the edges matters: it numbers the subjects of a prompt.  A graph by itself promises nothing; the
store keeps its graph in order.

A node can be asked for in two ways.  `node?` answers with the first node of an id, `lookup?` with
the last.  They agree wherever ids are distinct.
-/

namespace PromptCanvas

/-- A node: a configured part of a picture, with its place on the canvas. -/
structure Node (α : Type) where
  id : String
  kind : Kind
  attributes : kind.Attributes
  position : Point α
  collapsed : Bool
  parent : Option String

namespace Node

variable {α : Type}

/-- The attributes, if the node is of the kind. -/
def attributesAs (n : Node α) (k : Kind) : Option k.Attributes :=
  if h : n.kind = k then some (h ▸ n.attributes) else none

def label (n : Node α) : Option String := n.kind.label n.attributes

def isGroup (n : Node α) : Bool := n.kind == .group

def isOutput (n : Node α) : Bool := n.kind == .output

end Node

/-- An edge: the source feeds the target. -/
structure Edge where
  id : String
  source : String
  target : String
deriving Repr, DecidableEq

structure Graph (α : Type) where
  nodes : List (Node α)
  edges : List Edge

namespace Graph

variable {α : Type}

/-- The first node with an id. -/
def node? (g : Graph α) (id : String) : Option (Node α) := g.nodes.find? (·.id == id)

/-- The last node with an id. -/
def lookup? (g : Graph α) (id : String) : Option (Node α) := g.nodes.findRev? (·.id == id)

/-- The node that the prompt is compiled for. -/
def output? (g : Graph α) : Option (Node α) := g.nodes.find? Node.isOutput

/-- The nodes that a group holds. -/
def children (g : Graph α) (group : String) : List (Node α) :=
  g.nodes.filter (·.parent == some group)

/-- The graph with every node of an id changed. -/
def mapNode (g : Graph α) (id : String) (change : Node α → Node α) : Graph α :=
  { g with nodes := g.nodes.map fun n => if n.id == id then change n else n }

end Graph
end PromptCanvas
