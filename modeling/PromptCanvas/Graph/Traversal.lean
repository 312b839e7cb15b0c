import PromptCanvas.Graph.Basic
import PromptCanvas.Graph.Search

/-!
# Reading a graph against its edges

What feeds a node, directly or through hubs.  Edges whose source is gone are skipped.
-/

namespace PromptCanvas
namespace Graph

variable {α : Type}

/-- The nodes that feed a node, in the order of the edges. -/
def inputs (g : Graph α) (id : String) : List (Node α) :=
  g.edges.filterMap fun e => if e.target == id then g.lookup? e.source else none

/-- The inputs of one kind. -/
def inputsOf (g : Graph α) (id : String) (kind : Kind) : List (Node α) :=
  (g.inputs id).filter (·.kind == kind)

/-- The first input of a kind. -/
def firstInput? (g : Graph α) (id : String) (kind : Kind) : Option (Node α) :=
  (g.inputsOf id kind).head?

theorem id_mem_of_mem_inputs {g : Graph α} {id : String} {n : Node α} (h : n ∈ g.inputs id) :
    n.id ∈ g.nodes.map Node.id := by
  obtain ⟨e, -, he⟩ := List.mem_filterMap.mp h
  split at he
  · rw [lookup?, List.findRev?_eq_find?_reverse] at he
    exact List.mem_map_of_mem (List.mem_reverse.mp (List.mem_of_find?_eq_some he))
  · cases he

/-- Goes on collecting nodes of some kinds from the ids in the queue, against the edges.  Each node
is looked at once; the search goes on at hubs alone. -/
def collect (g : Graph α) (kinds : List Kind) (seen : List String) (found : List (Node α)) :
    List String → List (Node α)
  | [] => found
  | id :: queue =>
    let new := Search.newcomers Node.id seen (g.inputs id)
    g.collect kinds (seen ++ new.map Node.id) (found ++ new.filter fun n => kinds.contains n.kind)
      (queue ++ (new.filter (·.kind.isHub)).map Node.id)
termination_by queue => (Search.remaining (g.nodes.map Node.id) seen).length + queue.length
decreasing_by
  have := Search.length_newcomers Node.id seen
    fun n (hn : n ∈ g.inputs id) => id_mem_of_mem_inputs hn
  have := List.length_filter_le (fun n : Node α => n.kind.isHub)
    (Search.newcomers Node.id seen (g.inputs id))
  simp only [List.length_append, List.length_cons, List.length_map] at *; omega

/-- The nodes of some kinds that feed the root directly or through hubs, nearest first, each
once. -/
def feedersOf (g : Graph α) (root : String) (kinds : List Kind) : List (Node α) :=
  g.collect kinds [root] [] [root]

/-- The nodes of every kind that feed the root directly or through hubs. -/
def feeders (g : Graph α) (root : String) : List (Node α) := g.feedersOf root Kind.all

end Graph
end PromptCanvas
