import PromptCanvas.Graph.Document
import PromptCanvas.Store.Connection

/-!
# Loading a document

A document is loaded entry by entry.  What cannot be read or would break the graph is left out, with
a warning for each; a missing output is added and a parent that is no group is cleared.  Some errors
are not caught and stop loading as a whole: a coordinate beyond every double, and what cannot be
displayed where it has to be, as an identifier or in a warning.
-/

namespace PromptCanvas

/-- What was repaired or left out. -/
inductive LoadWarning where
  | notDocument (typeName : String)
  | notList (key typeName : String)
  | unreadableNode
  | duplicateNode (id : String)
  | extraOutput (id : String)
  | noOutput
  | danglingParent (parent node : String)
  | malformedEdge
  | cycle
  | droppedEdge (id : String) (reason : Rejection)
deriving Repr, DecidableEq

def LoadWarning.text : LoadWarning → String
  | .notDocument t => "Graph document is a " ++ t ++ ", not a mapping; loading empty"
  | .notList key t => "Ignoring '" ++ key ++ "': expected a list, got " ++ t
  | .unreadableNode => "Dropping unreadable node"
  | .duplicateNode id => "Dropping duplicate node id " ++ id
  | .extraOutput id => "Dropping extra Output node " ++ id
  | .noOutput => "Graph document has no Output node; synthesizing one"
  | .danglingParent parent node => "Clearing dangling parent " ++ parent ++ " on " ++ node
  | .malformedEdge => "Dropping malformed edge"
  | .cycle => "Graph document contains a cycle; edges closing it will be dropped"
  | .droppedEdge id reason => "Dropping edge " ++ id ++ ": " ++ reason.text

namespace Document

variable {α : Type} [Scalar α]

/-- The members of a document; anything but an object has none. -/
def members : Json → List (String × Json) × List LoadWarning
  | .obj fields => (fields, [])
  | j => ([], [.notDocument j.typeName])

/-- The entries under a key. -/
def entries (fields : List (String × Json)) (key : String) : List Json × List LoadWarning :=
  match (Keyed.find? key fields).getD .null with
  | .arr items => (items, [])
  | j => ([], if j.truthy then [.notList key j.typeName] else [])

/-- How a warning names an entry that cannot be read: by its id, or as a whole if it has no
members. -/
def describe : Json → Except Json.DisplayFault String
  | .obj fields => ((Keyed.find? "id" fields).getD .null).quoted Json.callsLeft
  | j => (j.quoted Json.callsLeft).map fun text => "entry " ++ text

/-- Passes over an entry that cannot be read, if the error is caught and the entry can be named. -/
def passOver (caught : List ErrorClass) (j : Json) (e : EntryError) : Except EntryError Unit :=
  if caught.contains e.errorClass then
    match describe j with
    | .ok _ => .ok ()
    | .error f => .error (.undisplayable f)
  else .error e

/-- The readable nodes after those that are kept already: the first of each id, and the first
output. -/
def keepNodes (kept : List (Node α)) :
    List Json → Except EntryError (List (Node α) × List LoadWarning)
  | [] => .ok (kept, [])
  | j :: rest =>
    let leaveOut (w : LoadWarning) : Except EntryError (List (Node α) × List LoadWarning) :=
      (keepNodes kept rest).map fun (nodes, ws) => (nodes, w :: ws)
    match Node.ofEntry j with
    | .error e =>
      match passOver [.key, .value, .type] j e with
      | .ok () => leaveOut .unreadableNode
      | .error e => .error e
    | .ok n =>
      if kept.any (·.id == n.id) then leaveOut (.duplicateNode n.id)
      else if n.isOutput && kept.any Node.isOutput then leaveOut (.extraOutput n.id)
      else keepNodes (kept ++ [n]) rest

/-- Clears a parent that names no group among the nodes. -/
def repairParent (kindOf : String → Option Kind) (n : Node α) : Node α × List LoadWarning :=
  match n.parent with
  | none => (n, [])
  | some p =>
    if kindOf p == some .group then (n, [])
    else ({ n with parent := none }, [.danglingParent p n.id])

/-- The readable edges. -/
def readEdges : List Json → Except EntryError (List Edge × List LoadWarning)
  | [] => .ok ([], [])
  | j :: rest =>
    match Edge.ofEntry j with
    | .error e =>
      match passOver [.key, .type] j e with
      | .ok () => (readEdges rest).map fun (edges, ws) => (edges, .malformedEdge :: ws)
      | .error e => .error e
    | .ok edge => (readEdges rest).map fun (edges, ws) => (edge :: edges, ws)

/-- Adds edges one after the other to those that are kept already, with their links. -/
def keepEdges (kindOf : String → Option Kind) (kept : List Edge) (links : Links) :
    List Edge → (List Edge × Links) × List LoadWarning
  | [] => ((kept, links), [])
  | e :: rest =>
    let leaveOut (r : Rejection) : (List Edge × Links) × List LoadWarning :=
      let (result, ws) := keepEdges kindOf kept links rest
      (result, .droppedEdge e.id r :: ws)
    match rejection? kindOf links e.source e.target with
    | some r => leaveOut r
    | none =>
      if kept.any (·.id == e.id) then leaveOut .duplicateId
      else keepEdges kindOf (kept ++ [e]) (links.add e.source e.target) rest

end Document

namespace Store

variable {α : Type} [Scalar α]

open Document in
/-- Replaces the graph by a document's.  An error leaves the store as far as loading has come: a
fresh output draws its id before the edges are read. -/
def load (s : Store α) (document : Json) : Store α × Except EntryError (List LoadWarning) :=
  let (fields, w₁) := members document
  let (nodeItems, w₂) := entries fields "nodes"
  match keepNodes [] nodeItems with
  | .error e => (s, .error e)
  | .ok (read, w₃) =>
    let complete := read.any Node.isOutput
    let nodes : List (Node α) := if complete then read else read ++ [freshOutput s.ids]
    let named := { s with ids := if complete then s.ids else s.ids.advance }
    let w₄ := if complete then [] else [LoadWarning.noOutput]
    let kindOf (id : String) : Option Kind := (Graph.mk nodes []).kindOf id
    let repaired := nodes.map (repairParent kindOf)
    let (edgeItems, w₅) := entries fields "edges"
    match readEdges edgeItems with
    | .error e => (named, .error e)
    | .ok (candidates, w₆) =>
      let w₇ := if hasCycle candidates then [LoadWarning.cycle] else []
      let ((edges, links), w₈) := keepEdges kindOf [] [] candidates
      (named.commit ⟨repaired.map Prod.fst, edges⟩ links,
        .ok (w₁ ++ w₂ ++ w₃ ++ w₄ ++ repaired.flatMap Prod.snd ++ w₅ ++ w₆ ++ w₇ ++ w₈))

/-- A new store with a document loaded into it. -/
def ofDocument (metrics : Metrics α) (document : Json) :
    Except EntryError (Store α × List LoadWarning) :=
  let (s, loaded) := (start metrics).load document
  loaded.map fun warnings => (s, warnings)

end Store
end PromptCanvas
