import PromptCanvas.Proofs.Graph.Visits
import PromptCanvas.Proofs.Keyed
import PromptCanvas.Proofs.Settings.Admitted
import PromptCanvas.Proofs.View.Changes
import PromptCanvas.Proofs.View.Members
import PromptCanvas.View.Render

/-!
# Gestures have two phases

While a gesture goes on, what it would change lies over the graph, and the store hears of it once,
when the pointer goes up.  `Engine.Steady` is what holds of an engine between any two calls: outside
of a drag nothing lies over the graph, and a drag has a recorded place for each node that it moves.
Calls come in any order, a gesture may be begun over another, and the store may be changed by others
in between; none of that is looked at, since no step of the engine asks what the graph was before.
-/

namespace PromptCanvas

variable {α : Type}

namespace Engine

/-- No gesture goes on, and nothing lies over the graph. -/
structure AtRest (e : Engine α) : Prop where
  gesture : e.gesture = none
  overlay : e.overlay = []

/-- What holds of an engine between two calls. -/
structure Steady (e : Engine α) : Prop where
  /-- Only a drag lays anything over the graph. -/
  dragging : e.overlay ≠ [] →
    ∃ ids start positions, e.gesture = some (.dragging ids start positions)
  /-- A drag has a place for each node that it moves, and for no other. -/
  recorded : ∀ ids start positions, e.gesture = some (.dragging ids start positions) →
    ∀ id, id ∈ Keyed.keys positions ↔ id ∈ ids

theorem AtRest.steady {e : Engine α} (h : e.AtRest) : e.Steady where
  dragging := fun ho => absurd h.overlay ho
  recorded := by
    intro ids start positions hg
    rw [h.gesture] at hg
    cases hg

theorem AtRest.mode_eq {e : Engine α} (h : e.AtRest) : e.mode = "idle" := by
  rw [mode, h.gesture]

theorem steady_of_overlay_eq_nil {e : Engine α} (ho : e.overlay = [])
    (hg : ∀ ids start positions, e.gesture ≠ some (.dragging ids start positions)) : e.Steady where
  dragging := fun h => absurd ho h
  recorded := fun ids start positions h => absurd h (hg ids start positions)

theorem Steady.congr {e e' : Engine α} (h : e.Steady) (ho : e'.overlay = e.overlay)
    (hg : e'.gesture = e.gesture) : e'.Steady := by
  refine ⟨fun hne => ?_, fun ids start positions => ?_⟩
  · rw [hg]
    exact h.dragging (ho ▸ hne)
  · rw [hg]
    exact h.recorded ids start positions

theorem Steady.overlay_eq_nil {e : Engine α} (h : e.Steady)
    (hg : ∀ ids start positions, e.gesture ≠ some (.dragging ids start positions)) :
    e.overlay = [] := by
  by_contra ho
  obtain ⟨ids, start, positions, hd⟩ := h.dragging ho
  exact hg ids start positions hd

theorem Steady.mode_eq {e : Engine α} (h : e.Steady) (ho : e.overlay ≠ []) :
    e.mode = "dragging" := by
  obtain ⟨ids, start, positions, hg⟩ := h.dragging ho
  rw [mode, hg]

theorem atRest_cancel (e : Engine α) : e.cancel.AtRest := ⟨rfl, rfl⟩

/-! ## The pointer goes down -/

/-- A gesture that is still going on is given up before another begins. -/
theorem Steady.atRest_of_down {e : Engine α} (h : e.Steady) :
    (if e.gesture.isSome then e.cancel else e).AtRest := by
  split
  · exact atRest_cancel e
  · rename_i hg
    rw [Option.not_isSome_iff_eq_none] at hg
    exact ⟨hg, h.overlay_eq_nil (by simp [hg])⟩

/-- The places that are recorded when the pointer goes down are those of the dragged nodes. -/
theorem mem_keys_starts {g : Graph α} {ids : List String} (h : ∀ id ∈ ids, id ∈ g.ids)
    (id : String) :
    id ∈ Keyed.keys (Keyed.ofList <| (g.nodes.filter fun n => ids.contains n.id).map fun n =>
      (n.id, n.position)) ↔ id ∈ ids := by
  rw [Keyed.mem_keys_ofList, Keyed.keys, List.map_map]
  constructor
  · intro hmem
    obtain ⟨n, hn, rfl⟩ := List.mem_map.mp hmem
    exact List.contains_iff_mem.mp (List.mem_filter.mp hn).2
  · intro hid
    obtain ⟨n, hn, rfl⟩ := List.mem_map.mp (h id hid)
    exact List.mem_map.mpr ⟨n, List.mem_filter.mpr ⟨hn, List.contains_iff_mem.mpr hid⟩, rfl⟩

theorem AtRest.beginDrag {e : Engine α} (h : e.AtRest) (g : Graph α) (id : String)
    (world : Point α) (shift : Bool) : (e.beginDrag g id world shift).Steady := by
  unfold Engine.beginDrag
  dsimp only
  split
  · exact h.steady.congr rfl rfl
  · refine ⟨fun ho => absurd h.overlay ho, fun ids start positions hg => ?_⟩
    cases hg
    exact mem_keys_starts fun _ hid => Graph.mem_ids_of_mem_dragged hid

variable [Scalar α]

theorem atRest_ofSize (width height : α) : (ofSize width height).AtRest := ⟨rfl, rfl⟩

theorem Steady.pointerDown {e : Engine α} (h : e.Steady) (s : Store α) (p : Point α)
    (primary shift : Bool) : (e.pointerDown s p primary shift).1.Steady := by
  have hrest := h.atRest_of_down
  unfold Engine.pointerDown
  generalize (if e.gesture.isSome then e.cancel else e) = e at hrest
  dsimp only
  split
  · exact hrest.steady
  · rename_i hit _
    split
    · exact hrest.steady
    · cases hit with
      | outputPin id => exact steady_of_overlay_eq_nil hrest.overlay fun _ _ _ hg => nomatch hg
      | inputPin id => exact steady_of_overlay_eq_nil hrest.overlay fun _ _ _ hg => nomatch hg
      | node id => exact hrest.beginDrag s.graph id _ shift
      | group id => exact hrest.beginDrag s.graph id _ shift
      | canvas =>
        dsimp only
        split
        · exact hrest.steady
        · exact steady_of_overlay_eq_nil hrest.overlay fun _ _ _ hg => nomatch hg

/-! ## The pointer moves and goes up -/

theorem Steady.pointerMove {e : Engine α} (h : e.Steady) (s : Store α) (p : Point α) :
    (e.pointerMove s p).Steady := by
  unfold Engine.pointerMove
  split
  · exact h
  · rename_i hg
    exact steady_of_overlay_eq_nil (h.overlay_eq_nil (by simp [hg])) fun _ _ _ hd => nomatch hd
  · rename_i ids start positions hg
    exact ⟨fun _ => ⟨ids, start, positions, hg⟩, h.recorded⟩
  · rename_i hg
    exact steady_of_overlay_eq_nil (h.overlay_eq_nil (by simp [hg])) fun _ _ _ hd => nomatch hd

theorem Steady.pointerUp {e : Engine α} (h : e.Steady) (s : Store α) (p : Point α) :
    (e.pointerUp s p).1.AtRest := by
  have hended (hg : ∀ ids start positions, e.gesture ≠ some (.dragging ids start positions)) :
      { e with gesture := none }.AtRest := ⟨rfl, h.overlay_eq_nil hg⟩
  unfold Engine.pointerUp
  cases hg : e.gesture with
  | none => exact hended (by simp [hg])
  | some g =>
    cases g with
    | panning last => exact hended (by simp [hg])
    | dragging ids start positions => exact ⟨rfl, rfl⟩
    | connecting anchor fromInput last =>
      dsimp only
      split
      · exact hended (by simp [hg])
      · exact hended (by simp [hg])

omit [Scalar α] in
theorem store_finishConnecting (s : Store α) (anchor : String) (fromInput : Bool) (hit : Hit) :
    (finishConnecting s anchor fromInput hit).1 = s ∨
      ∃ source target, (finishConnecting s anchor fromInput hit).1 = (s.addEdge source target).1 := by
  unfold finishConnecting
  split
  · exact Or.inl rfl
  · rename_i id _
    split
    · exact Or.inl rfl
    · cases fromInput with
      | true =>
        refine Or.inr ⟨id, anchor, ?_⟩
        show _ = (s.addEdge id anchor).1
        rcases s.addEdge id anchor with ⟨s', _ | edge⟩ <;> rfl
      | false =>
        refine Or.inr ⟨anchor, id, ?_⟩
        show _ = (s.addEdge anchor id).1
        rcases s.addEdge anchor id with ⟨s', _ | edge⟩ <;> rfl

/-- The end of a gesture changes nothing in the store, or moves nodes, or draws one edge. -/
theorem store_pointerUp (e : Engine α) (s : Store α) (p : Point α) :
    (e.pointerUp s p).2.1 = s ∨ (e.pointerUp s p).2.1 = (s.commitPositions e.overlay).1 ∨
      ∃ source target, (e.pointerUp s p).2.1 = (s.addEdge source target).1 := by
  unfold Engine.pointerUp
  cases e.gesture with
  | none => exact Or.inl rfl
  | some g =>
    cases g with
    | panning last => exact Or.inl rfl
    | dragging ids start positions => exact Or.inr (Or.inl rfl)
    | connecting anchor fromInput last =>
      dsimp only
      split
      · exact Or.inl rfl
      · exact (store_finishConnecting s anchor fromInput _).imp_right Or.inr

/-- What the store is asked for when the pointer goes up: nothing, one edge, or the places of the
overlay. -/
theorem exists_ops_pointerUp (e : Engine α) (s : Store α) (p : Point α) :
    ∃ ops : List (Store.Operation α), ops.length ≤ 1 ∧ (e.pointerUp s p).2.1 = s.run ops := by
  rcases e.store_pointerUp s p with hsame | hmoved | ⟨source, target, hdrawn⟩
  · exact ⟨[], Nat.zero_le 1, hsame⟩
  · exact ⟨[.commitPositions e.overlay], Nat.le_refl 1, hmoved⟩
  · refine ⟨[.addEdge source target], Nat.le_refl 1, ?_⟩
    rw [hdrawn]
    show _ = (s.addEdge source target).1
    rcases s.addEdge source target with ⟨s', _ | edge⟩ <;> rfl

end Engine

/-! ## Every call -/

namespace Canvas

/-- What a canvas can be asked for: an event, or a look at it. -/
inductive Call (α : Type) where
  | event (e : Event α)
  | hitTest (world : Point α)
  | hitTestScreen (p : Point α)
  | render

inductive Response (α : Type) where
  | answered (a : Answer)
  | found (hit : Option Hit)
  | drawn (frame : Frame α)

/-- The calls of the engine that are not for changing the store. -/
def Call.leavesStore : Call α → Bool
  | .event (.edit _) | .event (.up _) | .event (.toggle _) | .event .deleteSelection => false
  | _ => true

variable [Scalar α]

def call (c : Canvas α) : Call α → Canvas α × Response α
  | .event e => (c.apply e).map id .answered
  | .hitTest world => (c, .found (c.engine.hitTest? c.store world))
  | .hitTestScreen p => (c, .found (c.engine.hitTestScreen? c.store p))
  | .render => (c, .drawn (c.engine.render c.store))

/-- The states that a canvas can come to.  An engine is set up over any store; then calls are made,
the store is changed from elsewhere, and listeners come and go, in any order. -/
inductive Reachable : Canvas α → Prop
  | start (s : Store α) (width height : α) : Reachable ⟨s, .ofSize width height⟩
  | call {c : Canvas α} (h : Reachable c) (k : Call α) : Reachable (c.call k).1
  | subscribe {c : Canvas α} (h : Reachable c) (l : Listener) :
      Reachable { c with store := (c.store.subscribe l).1 }
  | unsubscribe {c : Canvas α} (h : Reachable c) (u : Subscription) :
      Reachable { c with store := c.store.unsubscribe u }

theorem Reachable.apply {c : Canvas α} (h : c.Reachable) (e : Event α) : (c.apply e).1.Reachable :=
  h.call (.event e)

theorem Reachable.run {c : Canvas α} (h : c.Reachable) (events : List (Event α)) :
    (c.run events).Reachable := by
  induction events generalizing c with
  | nil => exact h
  | cons e rest ih => exact ih (h.apply e)

theorem steady_apply {c : Canvas α} (h : c.engine.Steady) (e : Event α) :
    (c.apply e).1.engine.Steady := by
  cases e with
  | edit op => exact h
  | down p primary shift => exact h.pointerDown c.store p primary shift
  | move p => exact h.pointerMove c.store p
  | up p => exact (h.pointerUp c.store p).steady
  | cancel => exact (Engine.atRest_cancel c.engine).steady
  | wheel p delta pinch => exact h.congr rfl rfl
  | zoomIn => exact h.congr rfl rfl
  | zoomOut => exact h.congr rfl rfl
  | resetView => exact h.congr rfl rfl
  | resize width height => exact h.congr rfl rfl
  | toggle id => exact h
  | select ids => exact h.congr rfl rfl
  | deleteSelection => exact h.congr rfl rfl

theorem Reachable.steady {c : Canvas α} (h : c.Reachable) : c.engine.Steady := by
  induction h with
  | start s width height => exact (Engine.atRest_ofSize width height).steady
  | call h k ih =>
    cases k with
    | event e => exact steady_apply ih e
    | hitTest world => exact ih
    | hitTestScreen p => exact ih
    | render => exact ih
  | subscribe h l ih => exact ih
  | unsubscribe h u ih => exact ih

theorem store_call {k : Call α} (hk : k.leavesStore = true) (c : Canvas α) :
    (c.call k).1.store = c.store := by
  cases k with
  | event e =>
    cases e with
    | edit op => cases hk
    | up p => cases hk
    | toggle id => cases hk
    | deleteSelection => cases hk
    | _ => rfl
  | _ => rfl

/-- In every state of a canvas, something lies over the graph only while nodes are dragged.  No call
of the engine changes the store or is heard of by a listener, apart from the end of a gesture,
collapsing and deletion.  The end of a gesture asks the store for one change at most; after it, and
after a gesture was given up, nothing goes on and nothing lies over the graph, and giving up leaves
the store as it was. -/
theorem drags_in_two_phases {c : Canvas α} (h : c.Reachable) :
    (c.engine.overlay ≠ [] → c.engine.mode = "dragging") ∧
    (∀ k : Call α, k.leavesStore = true → (c.call k).1.store = c.store) ∧
    (∀ p : Point α, (c.apply (.up p)).1.engine.mode = "idle" ∧
      (c.apply (.up p)).1.engine.overlay = [] ∧
      (∃ ops : List (Store.Operation α), ops.length ≤ 1 ∧
        (c.apply (.up p)).1.store = c.store.run ops) ∧
      ∃ done, c.store.Change (c.apply (.up p)).1.store done) ∧
    (c.apply .cancel).1.engine.mode = "idle" ∧ (c.apply .cancel).1.engine.overlay = [] ∧
    (c.apply .cancel).1.store = c.store := by
  have hsteady := h.steady
  refine ⟨hsteady.mode_eq, fun k hk => store_call hk c, fun p => ?_, ?_, rfl, rfl⟩
  · have hrest := hsteady.pointerUp c.store p
    exact ⟨hrest.mode_eq, hrest.overlay, c.engine.exists_ops_pointerUp c.store p,
      _, c.engine.change_pointerUp c.store p⟩
  · exact (Engine.atRest_cancel c.engine).mode_eq

/-- A lens is pressed and moved while another lens is deleted from elsewhere. -/
def interrupted : List (Event Rat) :=
  [.edit (.addNode .lens ⟨0, 0⟩), .edit (.addNode .lens ⟨300, 0⟩), .down ⟨100, 40⟩ true false,
    .move ⟨250, 40⟩, .edit (.deleteNodes ["lens-3"]), .wheel ⟨0, 0⟩ 10 false]

theorem drags_in_two_phases_interrupted :
    let c := (Canvas.mk (.startWith .counting exactMetrics) (.ofSize 1280 800)).run interrupted
    c.engine.overlay ≠ [] ∧ c.engine.mode = "dragging" ∧
      (c.apply (.up ⟨250, 40⟩)).1.engine.mode = "idle" ∧ (c.apply .cancel).1.store = c.store := by
  intro c
  have hc : c.Reachable := (Reachable.start _ _ _).run interrupted
  have hlaid : c.engine.overlay ≠ [] := by decide +kernel
  obtain ⟨hmode, -, hup, -, -, hcancel⟩ := drags_in_two_phases hc
  exact ⟨hlaid, hmode hlaid, (hup ⟨250, 40⟩).1, hcancel⟩

end Canvas
end PromptCanvas
