import PromptCanvas.Store.Basic

/-!
# Connections

Why two nodes may not be connected.  `rejection?` is the only judge of edges, both of those that are
drawn and of those that a document brings.
-/

namespace PromptCanvas

/-- Why an edge is refused. -/
inductive Rejection where
  | unknownEndpoint
  | selfLoop
  | duplicateEdge
  | cannotFeed (source target : Kind)
  | wouldCycle
  | duplicateId
deriving Repr, DecidableEq

def Rejection.text : Rejection → String
  | .unknownEndpoint => "unknown endpoint"
  | .selfLoop => "self-loop"
  | .duplicateEdge => "duplicate edge"
  | .cannotFeed source target => source.name ++ " cannot feed " ++ target.name
  | .wouldCycle => "would create a cycle"
  | .duplicateId => "duplicate edge id"

/-- The first reason against an edge, given the kinds of the nodes and the links so far. -/
def rejection? (kindOf : String → Option Kind) (links : Links) (source target : String) :
    Option Rejection :=
  match kindOf source, kindOf target with
  | some sourceKind, some targetKind =>
    if source == target then some .selfLoop
    else if (links.targets source).contains target then some .duplicateEdge
    else if !sourceKind.canFeed targetKind then some (.cannotFeed sourceKind targetKind)
    else if links.createsCycle source target then some .wouldCycle
    else none
  | _, _ => some .unknownEndpoint

namespace Graph

variable {α : Type}

/-- The kind of the node with an id. -/
def kindOf (g : Graph α) (id : String) : Option Kind := (g.lookup? id).map Node.kind

end Graph

namespace Store

variable {α : Type}

/-- Why the store would refuse an edge. -/
def refusal? (s : Store α) (source target : String) : Option Rejection :=
  rejection? s.graph.kindOf s.links source target

def canConnect (s : Store α) (source target : String) : Bool := (s.refusal? source target).isNone

end Store
end PromptCanvas
