import PromptCanvas.Graph.Cycle
import PromptCanvas.Plane.Metrics

/-!
# The store

The store owns the graph.  Every change goes through `commit`, which replaces the graph and tells
every listener; a change that is refused leaves the store as it was.  Beside the graph the store
keeps its links, so that an edge is checked without a walk over all edges.
-/

namespace PromptCanvas

/-- Who is told about a new graph. -/
inductive Listener where
  | observer (name : String)
  /-- The one who counts the changes. -/
  | recorder
  /-- The live preview of the prompt. -/
  | preview
deriving Repr, DecidableEq

/-- A source of fresh ids: the id for a stem and a number, and how many were drawn. -/
structure IdSource where
  name : String → Nat → String
  drawn : Nat

namespace IdSource

/-- The stem and a number, which counts the ids of every stem. -/
def counting : IdSource := ⟨fun stem n => stem ++ "-" ++ toString n, 0⟩

/-- The number alone, as 32 hexadecimal digits. -/
def hexadecimal : IdSource := ⟨fun _ n => String.ofList (Text.hexPadded 32 n), 0⟩

/-- The next id for a stem. -/
def peek (s : IdSource) (stem : String) : String := s.name stem (s.drawn + 1)

def advance (s : IdSource) : IdSource := { s with drawn := s.drawn + 1 }

end IdSource

structure Store (α : Type) where
  metrics : Metrics α
  ids : IdSource
  graph : Graph α
  /-- The links of the graph's edges. -/
  links : Links
  listeners : List Listener
  /-- What listeners were told, the oldest first. -/
  deliveries : List (Listener × Graph α)

/-- A registered listener, kept by the one who may take it back. -/
structure Subscription where
  listener : Listener
deriving Repr, DecidableEq

namespace Store

variable {α : Type}

/-- A store that starts from a graph as it is. -/
def ofGraph (metrics : Metrics α) (g : Graph α) : Store α :=
  { metrics, ids := .counting, graph := g, links := .ofEdges g.edges, listeners := [],
    deliveries := [] }

/-- Puts a graph with its links in place and tells every listener. -/
def commit (s : Store α) (graph : Graph α) (links : Links) : Store α :=
  { s with
    graph, links
    deliveries := s.deliveries ++ s.listeners.map fun l => (l, graph) }

/-- How often a listener was told. -/
def told (s : Store α) (l : Listener) : Nat := (s.deliveries.filter (·.1 == l)).length

/-- Registers a listener; one that is registered twice is told twice. -/
def subscribe (s : Store α) (l : Listener) : Store α × Subscription :=
  ({ s with listeners := s.listeners ++ [l] }, ⟨l⟩)

/-- Takes one registration of the subscription's listener back, if there is any left. -/
def unsubscribe (s : Store α) (u : Subscription) : Store α :=
  { s with listeners := s.listeners.erase u.listener }

variable [Scalar α]

/-- Where a fresh output stands. -/
def outputPosition : Point α := ⟨((800 : Nat) : α), ((300 : Nat) : α)⟩

/-- A fresh output node. -/
def freshOutput (ids : IdSource) : Node α :=
  { id := ids.peek Kind.output.name, kind := .output, attributes := Kind.output.starting,
    position := outputPosition, collapsed := false, parent := none }

/-- A store whose graph is one fresh output, with its own source of ids. -/
def startWith (ids : IdSource) (metrics : Metrics α) : Store α :=
  { ofGraph metrics ⟨[freshOutput ids], []⟩ with ids := ids.advance }

/-- A store whose graph is one fresh output and whose ids are counted. -/
def start (metrics : Metrics α) : Store α := startWith .counting metrics

end Store
end PromptCanvas
