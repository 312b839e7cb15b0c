import PromptCanvas.Graph.Basic
import PromptCanvas.Keyed
import PromptCanvas.Plane.Metrics
import PromptCanvas.Plane.Rect

/-!
# Pushing nodes aside

A rectangle that is moved or grown pushes every node that it overlaps to its right, a gap away, and
a pushed node pushes others in turn.  The pushes go level by level, the seeds first, for at most as
many levels as the metrics allow; that many levels end the pass.
-/

namespace PromptCanvas

variable {α : Type} [Scalar α]

/-- The rectangle of a node at a position. -/
def nodeRect (m : Metrics α) (n : Node α) (position : Point α) : Rect α :=
  ⟨position.x, position.y, m.nodeWidth, m.height n.collapsed⟩

namespace Collision

/-- Rectangles by the ids of their nodes. -/
abbrev Rects (α : Type) := List (String × Rect α)

/-- The rectangle of another node after a push: a gap to the right of the pusher. -/
def shifted (gap : α) (pusher r : Rect α) : Rect α := r.movedTo (pusher.right + gap) r.y

/-- A pusher reaches an entry: it is another node, and the rectangles overlap. -/
def hits (pusher entry : String × Rect α) : Bool :=
  !(entry.1 == pusher.1) && pusher.2.overlaps entry.2

/-- The entries that a pusher moves, where it moves them. -/
def pushedBy (gap : α) (pusher : String × Rect α) (current : Rects α) : Rects α :=
  current.filterMap fun entry =>
    if hits pusher entry then some (entry.1, shifted gap pusher.2 entry.2) else none

/-- All entries after a push. -/
def afterPush (gap : α) (pusher : String × Rect α) (current : Rects α) : Rects α :=
  current.map fun entry =>
    if hits pusher entry then (entry.1, shifted gap pusher.2 entry.2) else entry

/-- One level: every pusher pushes in turn.  Gives the entries afterwards and, in the order of the
pushes, what was pushed. -/
def level (gap : α) : Rects α → Rects α → Rects α × Rects α
  | [], current => (current, [])
  | pusher :: rest, current =>
    let pushed := pushedBy gap pusher current
    let (after, later) := level gap rest (afterPush gap pusher current)
    (after, pushed ++ later)

/-- All pushes of so many levels, in their order. -/
def levels (gap : α) : Nat → Rects α → Rects α → Rects α
  | 0, _, _ => []
  | depth + 1, pushers, current =>
    let (after, pushed) := level gap pushers current
    pushed ++ levels gap depth pushed after

/-- Where the pushed nodes end: the last push of a node counts. -/
def resolve (m : Metrics α) (seeds : Rects α) (obstacles : List (Node α))
    (positions : List (String × Point α)) : List (String × Point α) :=
  let others := obstacles.filter fun n => (Keyed.find? n.id seeds).isNone
  let current := Keyed.ofList <| others.map fun n =>
    (n.id, nodeRect m n ((Keyed.find? n.id positions).getD n.position))
  let pushes := levels m.collisionGap m.maxPushDepth seeds current
  Keyed.ofList (pushes.map fun (id, r) => (id, r.corner))

end Collision
end PromptCanvas
