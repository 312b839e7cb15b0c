import PromptCanvas.Proofs.Store.Changes
import PromptCanvas.View.Canvas

/-!
# An event changes the store at most once

Whatever reaches the canvas asks the store for one change at most, and the answer says whether the
change was made.
-/

namespace PromptCanvas

variable {α : Type}

/-- The end of a gesture that has changed the store. -/
def Outcome.changed : Outcome → Bool
  | .moved _ | .connected _ => true
  | .nothing | .panned | .refused | .abandoned => false

/-- The answer to an event that has changed the store. -/
def Canvas.Answer.changed : Canvas.Answer → Bool
  | .edited reply => reply.accepted
  | .ended outcome => (outcome.map Outcome.changed).getD false
  | .toggled known => known
  | .deleted ids => !ids.isEmpty
  | .hit _ | .cancelled _ | .done => false

/-- To collapse a node that is expanded, or to expand one that is collapsed, is never refused. -/
theorem Store.change_setCollapsed_not {s : Store α} {id : String} {n : Node α}
    (hn : s.graph.node? id = some n) (positions : List (String × Point α)) :
    s.Change (s.setCollapsed id (!n.collapsed) positions).1 true := by
  have hother : (n.collapsed == !n.collapsed) = false := by cases n.collapsed <;> rfl
  have hdone : (s.setCollapsed id (!n.collapsed) positions).2 = true := by
    simp only [setCollapsed, hn, hother, Bool.false_eq_true, if_false]
  rw [← hdone]
  exact s.change_setCollapsed id (!n.collapsed) positions

theorem Engine.change_finishConnecting (s : Store α) (anchor : String) (fromInput : Bool)
    (hit : Hit) :
    s.Change (finishConnecting s anchor fromInput hit).1
      (finishConnecting s anchor fromInput hit).2.changed := by
  unfold finishConnecting
  split
  · exact .refused
  · rename_i id _
    split
    · exact .refused
    · have hadd : s.Change (if fromInput then s.addEdge id anchor else s.addEdge anchor id).1
          (if fromInput then s.addEdge id anchor else s.addEdge anchor id).2.isSome := by
        split
        · exact s.change_addEdge id anchor
        · exact s.change_addEdge anchor id
      generalize (if fromInput then s.addEdge id anchor else s.addEdge anchor id) = r at hadd
      obtain ⟨s', _ | edge⟩ := r
      · exact hadd
      · exact hadd

variable [Scalar α]

theorem Engine.change_pointerUp (e : Engine α) (s : Store α) (p : Point α) :
    s.Change (e.pointerUp s p).2.1 (((e.pointerUp s p).2.2.map Outcome.changed).getD false) := by
  unfold pointerUp
  cases e.gesture with
  | none => exact .refused
  | some g =>
    cases g with
    | panning last => exact .refused
    | dragging ids start positions =>
      have h := s.change_commitPositions e.overlay
      cases hdone : (s.commitPositions e.overlay).2 with
      | false => rw [hdone] at h; simp only [hdone]; exact h
      | true => rw [hdone] at h; simp only [hdone]; exact h
    | connecting anchor fromInput last =>
      dsimp only
      split
      · exact .refused
      · exact change_finishConnecting s anchor fromInput _

theorem Store.change_toggleCollapsed (s : Store α) (id : String) :
    s.Change (s.toggleCollapsed id).1 (s.toggleCollapsed id).2 := by
  unfold toggleCollapsed
  split
  · exact .refused
  · rename_i n hn
    exact change_setCollapsed_not hn _

/-- Every event is refused by the store or applied as a whole, and the answer says which. -/
theorem Canvas.attempt_apply (c : Canvas α) (e : Event α) :
    c.store.Attempt (c.apply e).1.store (c.apply e).2.changed := by
  cases e with
  | edit op => exact c.store.attempt_apply op
  | up p => exact .change (c.engine.change_pointerUp c.store p)
  | toggle id => exact .change (c.store.change_toggleCollapsed id)
  | deleteSelection => exact .change (c.store.change_deleteNodes c.engine.selection)
  | down p primary shift => exact .change .refused
  | move p => exact .change .refused
  | cancel => exact .change .refused
  | wheel p delta pinch => exact .change .refused
  | zoomIn => exact .change .refused
  | zoomOut => exact .change .refused
  | resetView => exact .change .refused
  | resize width height => exact .change .refused
  | select ids => exact .change .refused

end PromptCanvas
