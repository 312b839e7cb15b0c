import Mathlib.Tactic.Ring
import PromptCanvas.Proofs.View.Gestures
import PromptCanvas.Proofs.View.Pushes

/-!
# The last move counts

A gesture keeps what it began with, and each move is reckoned from there.  So a row of moves comes
to the same as the last of them: what was pushed on the way is not pushed any more.  For panning,
which does add up its steps, this holds as far as coordinates are exact.

When a drag ends, each node is where the last move put it.  Dragged nodes are moved by one vector;
what they push is reckoned from the positions that the store has, and no dragged node is pushed.
-/

namespace PromptCanvas

variable {α : Type}

/-! ## Who is pushed -/

/-- What is dragged is not pushed. -/
theorem Graph.not_mem_keys_pushes [Scalar α] (m : Metrics α) (g : Graph α) {ids : List String}
    (positions : List (String × Point α)) {id : String} (h : id ∈ ids) :
    id ∉ Keyed.keys (g.pushes m ids positions) := by
  intro hpushed
  obtain ⟨n, hn, rfl⟩ := List.mem_map.mp (Collision.mem_obstacles_of_resolve hpushed)
  have hnot := (List.mem_filter.mp hn).2
  rw [Bool.not_eq_true', ← Bool.not_eq_true, List.contains_iff_mem] at hnot
  exact hnot h

/-! ## What is committed -/

instance : LawfulBEq (Point Rat) where
  eq_of_beq {p q} h := by
    obtain ⟨hx, hy⟩ := Bool.and_eq_true_iff.mp h
    obtain ⟨x, y⟩ := p
    obtain ⟨x', y'⟩ := q
    rw [Point.mk.injEq]
    exact ⟨of_decide_eq_true hx, of_decide_eq_true hy⟩
  rfl {p} := Bool.and_eq_true_iff.mpr ⟨decide_eq_true rfl, decide_eq_true rfl⟩

theorem Store.placedBy_eq (positions : List (String × Point α)) (n : Node α) :
    placedBy positions n =
      { n with position := (Keyed.find? n.id positions).getD n.position } := by
  unfold placedBy
  cases Keyed.find? n.id positions <;> rfl

/-- Where coordinates can be told apart, nodes end where the positions put them. -/
theorem Store.nodes_commitPositions [Scalar α] [LawfulBEq (Point α)] (s : Store α)
    (positions : List (String × Point α)) :
    (s.commitPositions positions).1.graph =
      { s.graph with nodes := s.graph.nodes.map (placedBy positions) } := by
  have hstays : ∀ n : Node α, moves positions n ≠ true → placedBy positions n = n := by
    intro n hn
    unfold moves at hn
    unfold placedBy
    cases hp : Keyed.find? n.id positions with
    | none => rfl
    | some p =>
      rw [hp] at hn
      have hsame : p = n.position := by simpa using hn
      rw [hsame]
  unfold commitPositions
  split
  · refine congrArg (Graph.mk · s.graph.edges) (List.map_congr_left fun n _ => ?_)
    split
    · rfl
    · rename_i hn
      exact (hstays n hn).symm
  · rename_i hnone
    rw [List.any_eq_true] at hnone
    have hid : s.graph.nodes.map (placedBy positions) = s.graph.nodes.map id :=
      List.map_congr_left fun n hn => hstays n fun h => hnone ⟨n, hn, h⟩
    rw [hid, List.map_id]

namespace Engine

/-! ## Moves -/

/-- A move is reckoned from where the gesture began, not from the move before it. -/
theorem pointerMove_pointerMove (e : Engine Rat) (s : Store Rat) (p q : Point Rat) :
    (e.pointerMove s p).pointerMove s q = e.pointerMove s q := by
  unfold pointerMove
  cases hg : e.gesture with
  | none => simp only [hg]
  | some g =>
    cases g with
    | dragging ids start positions => simp only
    | connecting anchor fromInput last => rfl
    | panning last =>
      have htelescope : ∀ pan a b c : Rat, pan + (b - a) + (c - b) = pan + (c - a) := by
        intro pan a b c
        ring
      have hpan : (e.viewport.panBy (p.x - last.x) (p.y - last.y)).panBy (q.x - p.x) (q.y - p.y) =
          e.viewport.panBy (q.x - last.x) (q.y - last.y) := by
        simp only [Viewport.panBy, Point.offset]
        exact congrArg (fun pan => { e.viewport with pan })
          (congrArg₂ Point.mk (htelescope _ _ _ _) (htelescope _ _ _ _))
      simp only [hpan]

/-- The places of the dragged nodes when the pointer has gone from the start to a point. -/
def carried [Scalar α] (start : Point α) (positions : List (String × Point α)) (world : Point α) :
    List (String × Point α) :=
  positions.map fun (id, p) => (id, p.offset (world.minus start).x (world.minus start).y)

/-- Where the other nodes are pushed to then, reckoned from the positions of the store. -/
def pushedAside [Scalar α] (s : Store α) (ids : List String) (start : Point α)
    (positions : List (String × Point α)) (world : Point α) : List (String × Point α) :=
  s.graph.pushes s.metrics ids (Keyed.update s.graph.positions (carried start positions world))

theorem find?_dragOverlay [Scalar α] (s : Store α) (ids : List String) (start : Point α)
    (positions : List (String × Point α)) (world : Point α) (id : String) :
    Keyed.find? id (dragOverlay s ids start positions world) =
      (Keyed.find? id (pushedAside s ids start positions world)).or
        ((Keyed.find? id positions).map fun p =>
          p.offset (world.minus start).x (world.minus start).y) := by
  have hpushes : (Keyed.keys (pushedAside s ids start positions world)).Nodup :=
    Keyed.nodup_keys_ofList _
  have hcarried := Keyed.find?_map_snd
    (fun p => p.offset (world.minus start).x (world.minus start).y) positions id
  calc Keyed.find? id (dragOverlay s ids start positions world)
      = Keyed.find? id (Keyed.update (carried start positions world)
          (pushedAside s ids start positions world)) := rfl
    _ = _ := by
      rw [Keyed.find?_update, Keyed.find?_ofList_of_nodup hpushes, ← hcarried]
      rfl

theorem recorded_beginDrag {e : Engine α} (he : e.gesture = none) {g : Graph α} {id : String}
    {world start : Point α} {shift : Bool} {ids : List String} {positions : List (String × Point α)}
    (h : (e.beginDrag g id world shift).gesture = some (.dragging ids start positions)) :
    start = world ∧ ∀ id ∈ ids, Keyed.find? id positions = (g.lookup? id).map Node.position := by
  unfold beginDrag at h
  dsimp only at h
  split at h
  · rw [he] at h
    cases h
  · rename_i hids
    cases h
    refine ⟨rfl, fun i hi => ?_⟩
    have hkept : (fun n : Node α => decide
        ((g.dragged (pressed e.selection id shift)).contains n.id ∧ (n.id == i) = true)) =
          (·.id == i) := by
      funext n
      by_cases hn : n.id = i
      · simp [hn, hi]
      · simp [hn]
    rw [Keyed.find?_ofList_map Node.id Node.position, Graph.lookup?, List.findRev?_eq_find?_reverse,
      List.findRev?_eq_find?_reverse, ← List.filter_reverse, List.find?_filter, hkept]

/-- A drag that goes on after the pointer went down was begun by that, on some node; no gesture went
on any more then. -/
theorem beginDrag_of_pointerDown [Scalar α] {e : Engine α} {s : Store α} {p : Point α}
    {primary shift : Bool} {ids : List String} {start : Point α}
    {positions : List (String × Point α)}
    (h : (e.pointerDown s p primary shift).1.gesture = some (.dragging ids start positions)) :
    ∃ (idle : Engine α) (id : String), idle.gesture = none ∧
      (e.pointerDown s p primary shift).1 =
        idle.beginDrag s.graph id (e.viewport.toWorld p) shift := by
  have hnone : (if e.gesture.isSome then e.cancel else e).gesture = none := by
    split
    · rfl
    · exact Option.not_isSome_iff_eq_none.mp ‹_›
  have hview : (if e.gesture.isSome then e.cancel else e).viewport = e.viewport := by
    split <;> rfl
  rw [← hview]
  unfold pointerDown at h ⊢
  generalize (if e.gesture.isSome then e.cancel else e) = idle at h hnone ⊢
  dsimp only at h ⊢
  cases hhit : idle.hitTest? s (idle.viewport.toWorld p) with
  | none => rw [hhit, hnone] at h; cases h
  | some hit =>
    rw [hhit] at h
    cases primary with
    | false => exact absurd (hnone.symm.trans h) nofun
    | true =>
      cases hit with
      | outputPin id => cases h
      | inputPin id => cases h
      | node id => exact ⟨idle, id, hnone, rfl⟩
      | group id => exact ⟨idle, id, hnone, rfl⟩
      | canvas =>
        cases shift with
        | false => cases h
        | true => exact absurd (hnone.symm.trans h) nofun

/-- When the pointer goes down on a node, what is recorded is the point of the plane and the
positions of what is dragged. -/
theorem recorded_pointerDown [Scalar α] {e : Engine α} {s : Store α} {p : Point α}
    {primary shift : Bool} {ids : List String} {start : Point α}
    {positions : List (String × Point α)}
    (h : (e.pointerDown s p primary shift).1.gesture = some (.dragging ids start positions)) :
    start = e.viewport.toWorld p ∧
      ∀ id ∈ ids, Keyed.find? id positions = (s.graph.lookup? id).map Node.position := by
  obtain ⟨idle, id, hidle, hbegun⟩ := beginDrag_of_pointerDown h
  rw [hbegun] at h
  exact recorded_beginDrag hidle h

end Engine

namespace Canvas

theorem run_moves (c : Canvas Rat) (moves : List (Point Rat)) (last : Point Rat) :
    c.run ((moves ++ [last]).map .move) = (c.apply (.move last)).1 := by
  induction moves generalizing c with
  | nil => rfl
  | cons p rest ih =>
    show (c.apply (.move p)).1.run ((rest ++ [last]).map .move) = _
    rw [ih]
    exact congrArg c.withEngine (c.engine.pointerMove_pointerMove c.store p last)

/-- No event but a pointer that goes down begins a drag, or changes what it has recorded. -/
theorem dragging_of_apply [Scalar α] {c : Canvas α} {e : Event α} {ids : List String}
    {start : Point α} {positions : List (String × Point α)}
    (he : ∀ p primary shift, e ≠ .down p primary shift)
    (h : (c.apply e).1.engine.gesture = some (.dragging ids start positions)) :
    c.engine.gesture = some (.dragging ids start positions) := by
  cases e with
  | down p primary shift => exact absurd rfl (he p primary shift)
  | move p =>
    change (c.engine.pointerMove c.store p).gesture = _ at h
    unfold Engine.pointerMove at h
    split at h
    · exact h
    · cases h
    · exact h
    · cases h
  | up p =>
    change (c.engine.pointerUp c.store p).1.gesture = _ at h
    unfold Engine.pointerUp at h
    split at h
    · cases h
    · cases h
    · cases h
    · dsimp only at h
      split at h <;> cases h
  | cancel => cases h
  | _ => exact h

/-- Where nodes stand when a drag ends that was last moved to a point of the plane. -/
theorem graph_up_of_dragged {c : Canvas Rat} {ids : List String} {start : Point Rat}
    {positions : List (String × Point Rat)}
    (hg : c.engine.gesture = some (.dragging ids start positions)) (last release : Point Rat) :
    ((c.apply (.move last)).1.apply (.up release)).1.store.graph =
      { c.store.graph with
        nodes := c.store.graph.nodes.map (Store.placedBy
          (Engine.dragOverlay c.store ids start positions (c.engine.viewport.toWorld last))) } := by
  have hmoved : (c.apply (.move last)).1 = c.withEngine { c.engine with
      overlay := Engine.dragOverlay c.store ids start positions
        (c.engine.viewport.toWorld last) } := by
    show c.withEngine (c.engine.pointerMove c.store last) = _
    simp only [Engine.pointerMove, hg]
  rw [hmoved, ← Store.nodes_commitPositions]
  show (Engine.pointerUp _ c.store release).2.1.graph = _
  simp only [Engine.pointerUp, withEngine, hg]

/-- A row of moves comes to the same as the last of them.  A drag keeps what it recorded when the
pointer went down, and when it ends after some moves, each dragged node that is still there stands
where it was recorded, moved by the way from the recorded point to the last one; every other node
stands where it is pushed, if it is, and else where it stood. -/
theorem last_move_counts {c : Canvas Rat} (h : c.Reachable) :
    (∀ moves last, c.run ((moves ++ [last]).map .move) = (c.apply (.move last)).1) ∧
    (∀ p primary shift ids start positions,
      (c.apply (.down p primary shift)).1.engine.gesture = some (.dragging ids start positions) →
      start = c.engine.viewport.toWorld p ∧
        ∀ id ∈ ids, Keyed.find? id positions = (c.store.graph.lookup? id).map Node.position) ∧
    (∀ e ids start positions, (∀ p primary shift, e ≠ .down p primary shift) →
      (c.apply e).1.engine.gesture = some (.dragging ids start positions) →
      c.engine.gesture = some (.dragging ids start positions)) ∧
    ∀ ids start positions, c.engine.gesture = some (.dragging ids start positions) →
      ∀ moves last release, ∃ place : Node Rat → Point Rat,
        let world := c.engine.viewport.toWorld last
        (c.run ((moves ++ [last]).map .move ++ [.up release])).store.graph =
          { c.store.graph with
            nodes := c.store.graph.nodes.map fun n => { n with position := place n } } ∧
        (∀ n, n.id ∈ ids → ∃ p, Keyed.find? n.id positions = some p ∧
          place n = p.offset (world.minus start).x (world.minus start).y) ∧
        ∀ n, n.id ∉ ids → place n =
          (Keyed.find? n.id (Engine.pushedAside c.store ids start positions world)).getD
            n.position := by
  refine ⟨c.run_moves, fun p primary shift ids start positions => Engine.recorded_pointerDown,
    fun e ids start positions => dragging_of_apply, ?_⟩
  intro ids start positions hg moves last release
  have hrecorded := h.steady.recorded ids start positions hg
  refine ⟨fun n => (Keyed.find? n.id (Engine.dragOverlay c.store ids start positions
    (c.engine.viewport.toWorld last))).getD n.position, ?_, fun n hn => ?_, fun n hn => ?_⟩
  · have hrun : c.run ((moves ++ [last]).map .move ++ [.up release]) =
        ((c.apply (.move last)).1.apply (.up release)).1 := by
      rw [← c.run_moves moves last, run, List.foldl_append]
      rfl
    rw [hrun, graph_up_of_dragged hg]
    exact congrArg (Graph.mk · c.store.graph.edges)
      (List.map_congr_left fun n _ => Store.placedBy_eq _ n)
  · obtain ⟨p, hp⟩ := Keyed.exists_find?_iff.mpr ((hrecorded n.id).mpr hn)
    have hpushed := Keyed.find?_eq_none_iff.mpr
      (Graph.not_mem_keys_pushes c.store.metrics c.store.graph (Keyed.update c.store.graph.positions
        (Engine.carried start positions (c.engine.viewport.toWorld last))) hn)
    refine ⟨p, hp, ?_⟩
    dsimp only
    rw [Engine.find?_dragOverlay, Engine.pushedAside, hpushed, hp]
    rfl
  · have hnot := Keyed.find?_eq_none_iff.mpr fun hmem => hn ((hrecorded n.id).mp hmem)
    dsimp only
    rw [Engine.find?_dragOverlay, hnot, Option.map_none, Option.or_none]

/-- A lens is pressed beside another one. -/
def pressedLens : List (Event Rat) :=
  [.edit (.addNode .lens ⟨0, 0⟩), .edit (.addNode .lens ⟨300, 0⟩), .down ⟨100, 40⟩ true false]

/-- The lens is dragged far over the other one and back onto its edge. -/
theorem last_move_counts_pressed :
    let c := (Canvas.mk (.startWith .counting exactMetrics) (.ofSize 1280 800)).run pressedLens
    let moved := c.run (([⟨900, 40⟩, ⟨250, 40⟩] : List (Point Rat)).map .move)
    moved = (c.apply (.move ⟨250, 40⟩)).1 ∧
      c.engine.gesture = some (.dragging ["lens-2"] ⟨100, 40⟩ [("lens-2", ⟨0, 0⟩)]) ∧
      ∃ place : Node Rat → Point Rat,
        (moved.apply (.up ⟨0, 0⟩)).1.store.graph.nodes =
          c.store.graph.nodes.map (fun n => { n with position := place n }) ∧
        (∀ n, n.id = "lens-2" → place n = ⟨150, 0⟩) ∧
        ∀ n, n.id = "lens-3" → place n = ⟨370, 0⟩ := by
  intro c moved
  have hc : c.Reachable := (Reachable.start _ _ _).run pressedLens
  have hg : c.engine.gesture =
      some (.dragging ["lens-2"] ⟨100, 40⟩ [("lens-2", ⟨0, 0⟩)]) := by decide +kernel
  obtain ⟨hmoves, -, -, hend⟩ := last_move_counts hc
  obtain ⟨place, hgraph, hdragged, hother⟩ := hend _ _ _ hg [⟨900, 40⟩] ⟨250, 40⟩ ⟨0, 0⟩
  refine ⟨hmoves [⟨900, 40⟩] ⟨250, 40⟩, hg, place, congrArg Graph.nodes hgraph, ?_, ?_⟩
  · intro n hn
    obtain ⟨p, hp, hplace⟩ := hdragged n (by rw [hn]; decide)
    have hfound : Keyed.find? "lens-2" [("lens-2", (⟨0, 0⟩ : Point Rat))] = some ⟨0, 0⟩ := by decide
    rw [hn, hfound] at hp
    cases hp
    rw [hplace]
    decide +kernel
  · intro n hn
    rw [hother n (by rw [hn]; decide), hn]
    have hpushed : Keyed.find? "lens-3" (Engine.pushedAside c.store ["lens-2"] ⟨100, 40⟩
        [("lens-2", ⟨0, 0⟩)] (c.engine.viewport.toWorld ⟨250, 40⟩)) = some ⟨370, 0⟩ := by
      decide +kernel
    rw [hpushed]
    rfl

end Canvas
end PromptCanvas
