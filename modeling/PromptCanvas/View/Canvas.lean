import PromptCanvas.Store.Operation
import PromptCanvas.View.Engine

/-!
# The canvas

A store and the engine that edits it, and every event that reaches them.  Events come in any order:
gestures, commands to the view, and changes of the store from elsewhere.
-/

namespace PromptCanvas

structure Canvas (α : Type) where
  store : Store α
  engine : Engine α

namespace Canvas

variable {α : Type} [Scalar α]

inductive Event (α : Type) where
  | edit (op : Store.Operation α)
  | down (p : Point α) (primary shift : Bool)
  | move (p : Point α)
  | up (p : Point α)
  | cancel
  | wheel (p : Point α) (delta : α) (pinch : Bool)
  | zoomIn
  | zoomOut
  | resetView
  | resize (width height : α)
  | toggle (id : String)
  | select (ids : List String)
  | deleteSelection

inductive Answer where
  | edited (reply : Store.Reply)
  /-- What the pointer hit, unless a distance was out of range. -/
  | hit (found : Option Hit)
  /-- How the gesture ended, unless a distance was out of range. -/
  | ended (outcome : Option Outcome)
  | cancelled (active : Bool)
  | toggled (known : Bool)
  | deleted (ids : List String)
  | done
deriving Repr, DecidableEq

/-- The canvas with another view of the same store. -/
def withEngine (c : Canvas α) (e : Engine α) : Canvas α := { c with engine := e }

/-- The canvas after an event, and the answer to it. -/
def apply (c : Canvas α) : Event α → Canvas α × Answer
  | .edit op =>
    let (store, reply) := c.store.apply op
    ({ c with store }, .edited reply)
  | .down p primary shift =>
    let (engine, found) := c.engine.pointerDown c.store p primary shift
    (c.withEngine engine, .hit found)
  | .move p => (c.withEngine (c.engine.pointerMove c.store p), .done)
  | .up p =>
    let (engine, store, outcome) := c.engine.pointerUp c.store p
    (⟨store, engine⟩, .ended outcome)
  | .cancel => (c.withEngine c.engine.cancel, .cancelled c.engine.gesture.isSome)
  | .wheel p delta pinch => (c.withEngine (c.engine.wheel c.store.metrics p delta pinch), .done)
  | .zoomIn => (c.withEngine (c.engine.zoomIn c.store.metrics), .done)
  | .zoomOut => (c.withEngine (c.engine.zoomOut c.store.metrics), .done)
  | .resetView => (c.withEngine c.engine.resetView, .done)
  | .resize width height => (c.withEngine (c.engine.resize width height), .done)
  | .toggle id =>
    let (store, known) := c.store.toggleCollapsed id
    ({ c with store }, .toggled known)
  | .select ids => (c.withEngine (c.engine.select ids), .done)
  | .deleteSelection =>
    let (engine, store, ids) := c.engine.deleteSelection c.store
    (⟨store, engine⟩, .deleted ids)

/-- The canvas after a row of events. -/
def run (c : Canvas α) (events : List (Event α)) : Canvas α :=
  events.foldl (fun c e => (c.apply e).1) c

end Canvas
end PromptCanvas
