import PromptCanvas.Store.Edit
import PromptCanvas.Store.Load

/-!
# Operations

Every change that can be asked of a store, as a value, with the answer that the store gives.
-/

namespace PromptCanvas
namespace Store

variable {α : Type} [Scalar α]

inductive Operation (α : Type) where
  | addNode (kind : Kind) (position : Point α)
  | updateAttributes (id : String) (changes : List (String × Json))
  | deleteNodes (ids : List String)
  | commitPositions (positions : List (String × Point α))
  | setCollapsed (id : String) (collapsed : Bool) (positions : List (String × Point α))
  | setParent (id : String) (group : Option String)
  | reset
  | addEdge (source target : String)
  | removeEdge (id : String)
  | addConnected (anchor : String) (kind : Kind)
  | load (document : Json)

inductive Reply where
  /-- The id of what was made, if anything was. -/
  | made (id : Option String)
  /-- Whether anything was done. -/
  | changed (done : Bool)
  | deleted (ids : List String)
  | wasReset
  | loaded (warnings : List LoadWarning)
  | badAttributes (error : AttributeError)
  | unloadable (error : EntryError)
deriving Repr, DecidableEq

/-- The store did what was asked. -/
def Reply.accepted : Reply → Bool
  | .made id => id.isSome
  | .changed done => done
  | .deleted ids => !ids.isEmpty
  | .wasReset | .loaded _ => true
  | .badAttributes _ | .unloadable _ => false

/-- The store after an operation, and its answer. -/
def apply (s : Store α) : Operation α → Store α × Reply
  | .addNode kind position => (s.addNode kind position).map id .made
  | .updateAttributes id changes =>
    match s.updateAttributes id changes with
    | (s', .ok done) => (s', .changed done)
    | (s', .error e) => (s', .badAttributes e)
  | .deleteNodes ids => (s.deleteNodes ids).map id .deleted
  | .commitPositions positions => (s.commitPositions positions).map id .changed
  | .setCollapsed node collapsed positions =>
    (s.setCollapsed node collapsed positions).map id .changed
  | .setParent node group => (s.setParent node group).map id .changed
  | .reset => (s.reset, .wasReset)
  | .addEdge source target => (s.addEdge source target).map id .made
  | .removeEdge edge => (s.removeEdge edge).map id .changed
  | .addConnected anchor kind => (s.addConnected anchor kind).map id .made
  | .load document =>
    match s.load document with
    | (s', .ok warnings) => (s', .loaded warnings)
    | (s', .error e) => (s', .unloadable e)

/-- The store after a row of operations. -/
def run (s : Store α) (ops : List (Operation α)) : Store α :=
  ops.foldl (fun s op => (s.apply op).1) s

end Store
end PromptCanvas
