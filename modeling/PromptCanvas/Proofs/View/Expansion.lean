import PromptCanvas.Proofs.Store.Invariant
import PromptCanvas.Proofs.View.Columns
import PromptCanvas.Proofs.View.Covered
import PromptCanvas.Proofs.View.Drags

/-!
# Expanding a node

A node that is expanded is the only seed of its pass, and no column of its own lies over it, so in
the end nothing lies on it, however early the pass is cut off.  The pass is made on the graph in
which the node is expanded already; nothing lies in a node that is no group, so the same nodes are
covered there as before and after.
-/

namespace PromptCanvas

namespace Graph

open Relation

variable {α : Type} {g : Graph α}

theorem not_liesIn_of_plain (h : g.Sound) {n : Node α} (hn : n ∈ g.nodes)
    (hplain : n.isGroup = false) (a : String) : ¬ TransGen g.LiesIn a n.id := by
  intro hpath
  obtain ⟨b, -, k, hk, -, hp⟩ := TransGen.tail'_iff.mp hpath
  obtain ⟨m, hm, hid, hgroup⟩ := h.parent_group k hk n.id hp
  rw [eq_of_id_eq h.nodup_ids hm hn hid] at hgroup
  rw [Node.isGroup, hgroup] at hplain
  cases hplain

theorem mem_plain_iff (h : g.Sound) {n : Node α} :
    n ∈ g.visible.filter (fun n => !n.isGroup) ↔
      n ∈ g.nodes ∧ n.isGroup = false ∧ ¬ g.Covered n := by
  rw [List.mem_filter, visible, besides, List.mem_filter, Bool.not_eq_true', Bool.not_eq_true',
    ← Bool.not_eq_true (g.hidden.contains n.id), List.contains_iff_mem]
  constructor
  · rintro ⟨⟨hn, hshown⟩, hplain⟩
    rw [mem_hidden_iff h.nodup_ids hn (not_liesIn_of_plain h hn hplain n.id)] at hshown
    exact ⟨hn, hplain, hshown⟩
  · rintro ⟨hn, hplain, hshown⟩
    rw [← mem_hidden_iff h.nodup_ids hn (not_liesIn_of_plain h hn hplain n.id)] at hshown
    exact ⟨⟨hn, hshown⟩, hplain⟩

section Map

variable {change : Node α → Node α} (hid : ∀ n, (change n).id = n.id)
  (hparent : ∀ n, (change n).parent = n.parent)
include hid hparent

theorem liesIn_map (edges : List Edge) :
    (Graph.mk (g.nodes.map change) edges).LiesIn = g.LiesIn := by
  funext a b
  refine propext ⟨?_, ?_⟩
  · rintro ⟨m, hm, ha, hb⟩
    obtain ⟨n, hn, rfl⟩ := List.mem_map.mp hm
    exact ⟨n, hn, (hid n).symm.trans ha, (hparent n).symm.trans hb⟩
  · rintro ⟨n, hn, ha, hb⟩
    exact ⟨change n, List.mem_map_of_mem hn, (hid n).trans ha, (hparent n).trans hb⟩

/-- As long as no group is collapsed or expanded, the same nodes are covered. -/
theorem covered_map (h : g.Sound)
    (hgroup : ∀ n ∈ g.nodes, n.isGroup = true → (change n).collapsed = n.collapsed)
    (edges : List Edge) {k k' : Node α} (hk : k'.id = k.id) :
    (Graph.mk (g.nodes.map change) edges).Covered k' ↔ g.Covered k := by
  have hcollapsed : ∀ n ∈ g.nodes, TransGen g.LiesIn k.id n.id →
      (change n).collapsed = n.collapsed := by
    intro n hn hpath
    refine hgroup n hn ?_
    by_contra hplain
    exact not_liesIn_of_plain h hn (Bool.eq_false_of_not_eq_true hplain) k.id hpath
  rw [Covered, Covered, liesIn_map hid hparent, hk]
  constructor
  · rintro ⟨m, hm, hpath, hc⟩
    obtain ⟨n, hn, rfl⟩ := List.mem_map.mp hm
    rw [hid] at hpath
    exact ⟨n, hn, hpath, (hcollapsed n hn hpath).symm.trans hc⟩
  · rintro ⟨n, hn, hpath, hc⟩
    exact ⟨change n, List.mem_map_of_mem hn, by rwa [hid], (hcollapsed n hn hpath).trans hc⟩

end Map

theorem positionOf_positions (hids : (g.nodes.map Node.id).Nodup) {n : Node α} (hn : n ∈ g.nodes) :
    Overlay.positionOf g.positions n = n.position := by
  rw [Overlay.positionOf, positions, find?_ofList_nodes hids Node.position hn]
  rfl

/-! ## The pass of one node -/

theorem filter_contains_eq {ns : List (Node α)} (hids : (ns.map Node.id).Nodup) {n : Node α}
    (hn : n ∈ ns) : ns.filter (fun k => [n.id].contains k.id) = [n] := by
  induction ns with
  | nil => cases hn
  | cons k rest ih =>
    obtain ⟨hnew, hrest⟩ := List.nodup_cons.mp hids
    rcases List.mem_cons.mp hn with rfl | hlater
    · have hnone : rest.filter (fun k => [n.id].contains k.id) = [] := by
        refine List.filter_eq_nil_iff.mpr fun k hk hcontains => hnew ?_
        rw [← List.mem_singleton.mp (List.contains_iff_mem.mp hcontains)]
        exact List.mem_map_of_mem hk
      rw [List.filter_cons_of_pos (by simp), hnone]
    · have hne : k.id ≠ n.id := fun hid => hnew (hid ▸ List.mem_map_of_mem hlater)
      rw [List.filter_cons_of_neg (by simpa using hne), ih hrest hlater]

/-- The nodes that one visible node can push, which is no group. -/
def others (g : Graph α) (id : String) : List (Node α) :=
  (g.visible.filter fun k => !k.isGroup).filter fun k => !([id].contains k.id)

theorem mem_others_iff (h : g.Sound) {id : String} {k : Node α} :
    k ∈ g.others id ↔ (k ∈ g.nodes ∧ k.isGroup = false ∧ ¬ g.Covered k) ∧ k.id ≠ id := by
  rw [others, List.mem_filter, mem_plain_iff h]
  refine and_congr_right fun _ => ?_
  rw [Bool.not_eq_true', ← Bool.not_eq_true, List.contains_iff_mem, List.mem_singleton]

theorem nodup_others (h : g.Sound) (id : String) : ((g.others id).map Node.id).Nodup :=
  h.nodup_ids.sublist <| List.Sublist.map Node.id <|
    List.filter_sublist.trans (List.filter_sublist.trans List.filter_sublist)

theorem pushes_singleton [Scalar α] (h : g.Sound) (m : Metrics α) {n : Node α} (hn : n ∈ g.nodes)
    (hplain : n.isGroup = false) (hshown : ¬ g.Covered n) :
    g.pushes m [n.id] g.positions =
      Collision.resolve m [(n.id, nodeRect m n n.position)] (g.others n.id) g.positions := by
  have hids : ((g.visible.filter fun k => !k.isGroup).map Node.id).Nodup :=
    h.nodup_ids.sublist ((List.filter_sublist.trans List.filter_sublist).map Node.id)
  have hposition := positionOf_positions h.nodup_ids hn
  rw [Overlay.positionOf] at hposition
  rw [pushes, filter_contains_eq hids ((mem_plain_iff h).mpr ⟨hn, hplain, hshown⟩),
    List.map_singleton, hposition]
  rfl

section Room

variable {g : Graph Rat} (h : g.Sound) {m : Metrics Rat} (hm : m.Admitted) {n : Node Rat}
  (hn : n ∈ g.nodes) (hplain : n.isGroup = false) (hshown : ¬ g.Covered n)
include h hm hn hplain hshown

theorem pushes_right {k : Node Rat} (hk : k ∈ g.nodes) {q : Point Rat}
    (hq : Keyed.find? k.id (g.pushes m [n.id] g.positions) = some q) :
    q.y = k.position.y ∧ k.position.x < q.x := by
  rw [pushes_singleton h m hn hplain hshown] at hq
  obtain ⟨-, p, -, -, -, horderly, hresolve⟩ := Collision.exists_ended_pass hm
    [(n.id, nodeRect m n n.position)] (g.others n.id) g.positions
  rw [hresolve] at hq
  obtain ⟨j, hj, hid, -, hy, hx, -⟩ :=
    horderly.returned (nodup_others h n.id) (Keyed.mem_of_find? hq)
  have hsame : j = k := eq_of_id_eq h.nodup_ids ((mem_others_iff h).mp hj).1.1 hk hid
  rw [hsame, positionOf_positions h.nodup_ids hk] at hy hx
  exact ⟨hy, hx⟩

theorem pushes_clear {k : Node Rat} (hk : k ∈ g.nodes) (hne : k.id ≠ n.id)
    (hkplain : k.isGroup = false) (hkshown : ¬ g.Covered k) :
    (nodeRect m n n.position).overlaps (nodeRect m k
      ((Keyed.find? k.id (g.pushes m [n.id] g.positions)).getD k.position)) ≠ true := by
  have hseed : n.id ∉ (g.others n.id).map Node.id := by
    intro hmem
    obtain ⟨j, hj, hid⟩ := List.mem_map.mp hmem
    exact ((mem_others_iff h).mp hj).2 hid
  have hclear := Collision.clear_of_single hm (nodup_others h n.id)
    (s := (n.id, nodeRect m n n.position)) hseed g.positions
    ((mem_others_iff h).mpr ⟨⟨hk, hkplain, hkshown⟩, hne⟩)
  rw [Collision.resting, positionOf_positions h.nodup_ids hk,
    ← pushes_singleton h m hn hplain hshown] at hclear
  exact hclear

end Room

end Graph

/-! ## The change of the store -/

namespace Store

/-- The graph in which a node is expanded and the others stand where they were. -/
def grown {α : Type} (s : Store α) (id : String) : Graph α :=
  s.graph.mapNode id fun k => { k with collapsed := false }

/-- Where the others are pushed when a node is expanded. -/
def madeRoom {α : Type} [Scalar α] (s : Store α) (id : String) : List (String × Point α) :=
  (s.grown id).pushes s.metrics [id] (s.grown id).positions

/-- A node when another one, or the node itself, is expanded and the others make room. -/
def besideGrown {α : Type} [Scalar α] (s : Store α) (id : String) (k : Node α) : Node α :=
  placedBy (s.madeRoom id) (if k.id == id then { k with collapsed := false } else k)

theorem find?_madeRoom_self {α : Type} [Scalar α] (s : Store α) (id : String) :
    Keyed.find? id (s.madeRoom id) = none :=
  Keyed.find?_eq_none_iff.mpr (Graph.not_mem_keys_pushes _ _ _ List.mem_cons_self)

theorem besideGrown_self {α : Type} [Scalar α] (s : Store α) (n : Node α) :
    s.besideGrown n.id n = { n with collapsed := false } := by
  rw [besideGrown, if_pos (beq_self_eq_true n.id), placedBy]
  dsimp only
  rw [find?_madeRoom_self]

theorem besideGrown_other {α : Type} [Scalar α] (s : Store α) {id : String} {k : Node α}
    (hk : k.id ≠ id) :
    s.besideGrown id k =
      { k with position := (Keyed.find? k.id (s.madeRoom id)).getD k.position } := by
  rw [besideGrown, if_neg (by simpa using hk), placedBy_eq]

section Grown

variable {s : Store Rat} (h : s.Sound) {n : Node Rat} (hn : n ∈ s.graph.nodes)
  (hplain : n.isGroup = false)
include h hn

/-- Expanding commits once: the node expanded, and the others where they were pushed. -/
theorem toggleCollapsed_eq (hplain : n.isGroup = false) (hcollapsed : n.collapsed = true) :
    s.toggleCollapsed n.id =
      (s.commit ⟨s.graph.nodes.map (s.besideGrown n.id), s.graph.edges⟩ s.links, true) := by
  have hfound := Graph.node?_of_mem h.graph.nodup_ids hn
  rw [toggleCollapsed, hfound]
  dsimp only
  rw [setCollapsed, hfound]
  dsimp only
  rw [hcollapsed, hplain]
  show (s.commit ⟨(s.grown n.id).nodes.map (placedBy (s.madeRoom n.id)), s.graph.edges⟩ s.links,
    true) = _
  rw [grown, Graph.mapNode, List.map_map]
  rfl

omit hn in
theorem sound_grown (id : String) : (s.grown id).Sound :=
  h.graph.mapNode (fun _ _ _ => rfl) (fun _ _ _ => rfl) (fun k hk _ => h.graph.parent_group k hk)
    (fun k hk _ => h.graph.fits k hk)

omit h in
theorem mem_grown : { n with collapsed := false } ∈ (s.grown n.id).nodes :=
  List.mem_map.mpr ⟨n, hn, if_pos (beq_self_eq_true n.id)⟩

omit h hn in
theorem mem_grown_of_ne {k : Node Rat} (hk : k ∈ s.graph.nodes) (hne : k.id ≠ n.id) :
    k ∈ (s.grown n.id).nodes :=
  List.mem_map.mpr ⟨k, hk, if_neg (by simpa using hne)⟩

include hplain

theorem collapsed_of_group {k : Node Rat} (hk : k ∈ s.graph.nodes) (hgroup : k.isGroup = true) :
    (if k.id == n.id then { k with collapsed := false } else k).collapsed = k.collapsed := by
  rw [if_neg]
  intro hid
  rw [Graph.eq_of_id_eq h.graph.nodup_ids hk hn (eq_of_beq hid), hplain] at hgroup
  cases hgroup

theorem covered_grown {k k' : Node Rat} (hk : k'.id = k.id) :
    (s.grown n.id).Covered k' ↔ s.graph.Covered k :=
  Graph.covered_map (fun k => by split <;> rfl) (fun k => by split <;> rfl) h.graph
    (fun _ hj hgroup => collapsed_of_group h hn hplain hj hgroup) _ hk

theorem covered_besideGrown (edges : List Edge) {k k' : Node Rat} (hk : k'.id = k.id) :
    (Graph.mk (s.graph.nodes.map (s.besideGrown n.id)) edges).Covered k' ↔ s.graph.Covered k := by
  refine Graph.covered_map (fun k => ?_) (fun k => ?_) h.graph (fun j hj hgroup => ?_) _ hk
  · rw [besideGrown, placedBy_eq]
    split <;> rfl
  · rw [besideGrown, placedBy_eq]
    split <;> rfl
  · rw [besideGrown, placedBy_eq]
    exact collapsed_of_group h hn hplain hj hgroup

variable (hm : s.metrics.Admitted) (hshown : ¬ s.graph.Covered n)
include hm hshown

theorem madeRoom_right {k : Node Rat} (hk : k ∈ s.graph.nodes) :
    ((Keyed.find? k.id (s.madeRoom n.id)).getD k.position).y = k.position.y ∧
      k.position.x ≤ ((Keyed.find? k.id (s.madeRoom n.id)).getD k.position).x := by
  cases hq : Keyed.find? k.id (s.madeRoom n.id) with
  | none => exact ⟨rfl, le_refl k.position.x⟩
  | some q =>
    have hne : k.id ≠ n.id := by
      intro hid
      rw [hid, find?_madeRoom_self] at hq
      cases hq
    obtain ⟨hy, hx⟩ := Graph.pushes_right (n := { n with collapsed := false }) (sound_grown h n.id)
      hm (mem_grown hn) hplain (fun hc => hshown ((covered_grown h hn hplain rfl).mp hc))
      (mem_grown_of_ne hk hne) hq
    exact ⟨hy, le_of_lt hx⟩

theorem madeRoom_clear {k : Node Rat} (hk : k ∈ s.graph.nodes) (hne : k.id ≠ n.id)
    (hkplain : k.isGroup = false) (hkshown : ¬ s.graph.Covered k) :
    (nodeRect s.metrics { n with collapsed := false } n.position).overlaps (nodeRect s.metrics k
      ((Keyed.find? k.id (s.madeRoom n.id)).getD k.position)) ≠ true :=
  Graph.pushes_clear (n := { n with collapsed := false }) (sound_grown h n.id) hm (mem_grown hn)
    hplain (fun hc => hshown ((covered_grown h hn hplain rfl).mp hc)) (mem_grown_of_ne hk hne)
    hne hkplain fun hc => hkshown ((covered_grown h hn hplain rfl).mp hc)

theorem map_besideGrown :
    s.graph.nodes.map (s.besideGrown n.id) = s.graph.nodes.map fun k =>
      if k.id = n.id then { k with collapsed := false }
      else { k with position :=
        ⟨((Keyed.find? k.id (s.madeRoom n.id)).getD k.position).x, k.position.y⟩ } := by
  refine List.map_congr_left fun k hk => ?_
  by_cases hid : k.id = n.id
  · rw [if_pos hid, Graph.eq_of_id_eq h.graph.nodup_ids hk hn hid, besideGrown_self]
  · rw [if_neg hid, s.besideGrown_other hid, ← (madeRoom_right h hn hplain hm hshown hk).1]

theorem besideGrown_clear (edges : List Edge) {k : Node Rat}
    (hk : k ∈ s.graph.nodes.map (s.besideGrown n.id)) (hne : k.id ≠ n.id)
    (hkplain : k.isGroup = false)
    (hkshown : ¬ (Graph.mk (s.graph.nodes.map (s.besideGrown n.id)) edges).Covered k) :
    (nodeRect s.metrics { n with collapsed := false } n.position).overlaps
      (nodeRect s.metrics k k.position) = false := by
  obtain ⟨j, hj, rfl⟩ := List.mem_map.mp hk
  have hjne : j.id ≠ n.id := by
    intro hid
    rw [Graph.eq_of_id_eq h.graph.nodup_ids hj hn hid, besideGrown_self] at hne
    exact hne rfl
  -- What is covered is asked of the graph after the change, but the answer is that from before.
  have hmoved := s.besideGrown_other hjne
  have hcovered := covered_besideGrown h hn hplain edges (congrArg Node.id hmoved)
  rw [hmoved] at hkplain ⊢
  exact Bool.eq_false_of_not_eq_true (madeRoom_clear h hn hplain hm hshown hj hjne hkplain
    fun hc => hkshown (hcovered.mpr hc))

end Grown

end Store

/-! ## Canvases that are kept in order -/

namespace Canvas

variable {α : Type} [Scalar α]

/-- Each id that an event draws is new to the graph, and to the document if one is loaded. -/
def DrawsNew (c : Canvas α) : Event α → Prop
  | .edit op => c.store.DrawsNew op
  | .up p => c.store.ids.drawn < (c.apply (.up p)).1.store.ids.drawn →
      c.store.ids.peek Store.edgeStem ∉ c.store.graph.allIds
  | _ => True

instance (c : Canvas α) (e : Event α) : Decidable (c.DrawsNew e) :=
  match e with
  | .edit op => inferInstanceAs (Decidable (c.store.DrawsNew op))
  | .up p => inferInstanceAs (Decidable (c.store.ids.drawn < (c.apply (.up p)).1.store.ids.drawn →
      c.store.ids.peek Store.edgeStem ∉ c.store.graph.allIds))
  | .down .. | .move _ | .cancel | .wheel .. | .zoomIn | .zoomOut | .resetView | .resize ..
  | .toggle _ | .select _ | .deleteSelection => isTrue trivial

/-- So does each of a row of events, in the canvas that it comes upon. -/
def RunsNew (c : Canvas α) : List (Event α) → Prop
  | [] => True
  | e :: rest => c.DrawsNew e ∧ (c.apply e).1.RunsNew rest

instance decidableRunsNew : (c : Canvas α) → (events : List (Event α)) →
    Decidable (c.RunsNew events)
  | _, [] => isTrue trivial
  | c, e :: rest =>
    have := decidableRunsNew (c.apply e).1 rest
    inferInstanceAs (Decidable (c.DrawsNew e ∧ (c.apply e).1.RunsNew rest))

/-- The states that a canvas can come to over a sound store, while each id that is drawn is new. -/
inductive Attained : Canvas α → Prop
  | start {s : Store α} (h : s.Sound) (width height : α) : Attained ⟨s, .ofSize width height⟩
  | apply {c : Canvas α} (h : Attained c) {e : Event α} (hnew : c.DrawsNew e) :
      Attained (c.apply e).1
  | subscribe {c : Canvas α} (h : Attained c) (l : Listener) :
      Attained { c with store := (c.store.subscribe l).1 }
  | unsubscribe {c : Canvas α} (h : Attained c) (u : Subscription) :
      Attained { c with store := c.store.unsubscribe u }

theorem sound_apply {c : Canvas α} (h : c.store.Sound) {e : Event α} (hnew : c.DrawsNew e) :
    (c.apply e).1.store.Sound := by
  cases e with
  | edit op => exact h.apply hnew
  | up p =>
    rcases c.engine.store_pointerUp c.store p with hsame | hmoved | ⟨source, target, hdrawn⟩
    · show (c.engine.pointerUp c.store p).2.1.Sound
      rw [hsame]
      exact h
    · show (c.engine.pointerUp c.store p).2.1.Sound
      rw [hmoved]
      exact h.commitPositions c.engine.overlay
    · have hdraws : c.store.ids.drawn < (c.engine.pointerUp c.store p).2.1.ids.drawn →
          c.store.ids.peek Store.edgeStem ∉ c.store.graph.allIds := hnew
      show (c.engine.pointerUp c.store p).2.1.Sound
      rw [hdrawn] at hdraws ⊢
      exact h.addEdge hdraws
  | toggle id =>
    show (c.store.toggleCollapsed id).1.Sound
    unfold Store.toggleCollapsed
    split
    · exact h
    · exact h.setCollapsed id _ _
  | deleteSelection => exact h.deleteNodes c.engine.selection
  | _ => exact h

theorem Attained.sound {c : Canvas α} (h : c.Attained) : c.store.Sound := by
  induction h with
  | start h width height => exact h
  | apply h hnew ih => exact sound_apply ih hnew
  | subscribe h l ih => exact ⟨ih.graph, ih.links⟩
  | unsubscribe h u ih => exact ⟨ih.graph, ih.links⟩

theorem Attained.run {c : Canvas α} (h : c.Attained) {events : List (Event α)}
    (hnew : c.RunsNew events) : (c.run events).Attained := by
  induction events generalizing c with
  | nil => exact h
  | cons e rest ih => exact ih (h.apply hnew.1) hnew.2

/-- A collapsed node that is drawn and is no group is expanded where it stands.  Afterwards no other
node that is drawn and is no group lies on it; the others have kept everything but their places,
which are at most further to the right; the edges are what they were; and every listener was told
once. -/
theorem expanding_leaves_room {c : Canvas Rat} (h : c.Attained) (hm : c.store.metrics.Admitted)
    {n : Node Rat} (hn : n ∈ c.store.graph.nodes) (hplain : n.isGroup = false)
    (hcollapsed : n.collapsed = true) (hshown : ¬ c.store.graph.Covered n) :
    let expanded : Node Rat := { n with collapsed := false }
    let after := (c.apply (.toggle n.id)).1.store
    (c.apply (.toggle n.id)).2 = .toggled true ∧ expanded ∈ after.graph.nodes ∧
      (∀ k ∈ after.graph.nodes, k.id ≠ n.id → k.isGroup = false → ¬ after.graph.Covered k →
        (nodeRect after.metrics expanded expanded.position).overlaps
          (nodeRect after.metrics k k.position) = false) ∧
      (∃ x : Node Rat → Rat, (∀ k ∈ c.store.graph.nodes, k.position.x ≤ x k) ∧
        after.graph.nodes = c.store.graph.nodes.map fun k =>
          if k.id = n.id then { k with collapsed := false }
          else { k with position := ⟨x k, k.position.y⟩ }) ∧
      after.graph.edges = c.store.graph.edges ∧ after.listeners = c.store.listeners ∧
      after.deliveries = c.store.deliveries ++ c.store.listeners.map fun l => (l, after.graph) := by
  intro expanded after
  have hsound := h.sound
  have htoggle := Store.toggleCollapsed_eq hsound hn hplain hcollapsed
  have hafter : after = c.store.commit
      ⟨c.store.graph.nodes.map (c.store.besideGrown n.id), c.store.graph.edges⟩ c.store.links :=
    congrArg Prod.fst htoggle
  refine ⟨congrArg (fun r : Store Rat × Bool => Answer.toggled r.2) htoggle, ?_, ?_, ?_, ?_, ?_, ?_⟩
  · rw [hafter]
    exact List.mem_map.mpr ⟨n, hn, c.store.besideGrown_self n⟩
  · rw [hafter]
    exact fun k hk hne hkplain hkshown =>
      Store.besideGrown_clear hsound hn hplain hm hshown _ hk hne hkplain hkshown
  · refine ⟨fun k => ((Keyed.find? k.id (c.store.madeRoom n.id)).getD k.position).x, ?_, ?_⟩
    · exact fun k hk => (Store.madeRoom_right hsound hn hplain hm hshown hk).2
    · rw [hafter]
      exact Store.map_besideGrown hsound hn hplain hm hshown
  · rw [hafter]
    rfl
  · rw [hafter]
    rfl
  · rw [hafter]
    rfl

/-- A lens close above another one; somebody listens. -/
def stackedLenses : Canvas Rat :=
  ((Canvas.mk ((Store.startWith .counting exactMetrics).subscribe .recorder).1
    (.ofSize 1280 800)).run
      [.edit (.addNode .lens ⟨0, 0⟩), .edit (.addNode .lens ⟨0, 60⟩)])

theorem expanding_leaves_room_stacked :
    let n := Collision.lensAt "lens-2" (0 : Rat) 0
    let after := (stackedLenses.apply (.toggle "lens-2")).1.store
    stackedLenses.Attained ∧ n ∈ stackedLenses.store.graph.nodes ∧
      ¬ stackedLenses.store.graph.Covered n ∧ { n with collapsed := false } ∈ after.graph.nodes ∧
      (∀ k ∈ after.graph.nodes, k.id = "lens-3" → k.isGroup = false → ¬ after.graph.Covered k →
        (⟨0, 0, 200, 120⟩ : Rect Rat).overlaps (nodeRect after.metrics k k.position) = false) ∧
      after.deliveries.length = 3 := by
  intro n after
  have hstart : (Store.startWith .counting exactMetrics).Sound := Store.sound_startWith _ _
  have hattained : stackedLenses.Attained := by
    refine .apply (.apply ((Attained.start hstart 1280 800).subscribe .recorder) ?_) ?_
    · show Store.DrawsNew _ _
      decide +kernel
    · show Store.DrawsNew _ _
      decide +kernel
  have hn : n ∈ stackedLenses.store.graph.nodes := .tail _ (.head _)
  have hshown : ¬ stackedLenses.store.graph.Covered n := by decide +kernel
  obtain ⟨-, hmem, hclear, -, -, -, hdeliveries⟩ :=
    expanding_leaves_room hattained admitted_exactMetrics hn rfl rfl hshown
  refine ⟨hattained, hn, hshown, hmem, fun k hk hid => hclear k hk ?_, ?_⟩
  · rw [hid]
    decide
  · show (stackedLenses.apply (.toggle n.id)).1.store.deliveries.length = 3
    rw [hdeliveries]
    rfl

end Canvas
end PromptCanvas
