import PromptCanvas.Proofs.Graph.Nesting
import PromptCanvas.Proofs.Keyed
import PromptCanvas.Proofs.Store.Changes
import PromptCanvas.Proofs.Store.Invariant
import PromptCanvas.View.Render

/-!
# Collapsed groups

A collapsed group covers all that lies in it, at any depth, and is drawn in its place.  Which nodes
are covered and what stands in for them are found by two walks up the parents, each with its own
guard against rings; where the graph is sound and well nested the guards never act, and the two
walks agree.  `Covered` and `Outermost` say what the walks find.
-/

namespace PromptCanvas
namespace Graph

open Relation

variable {α : Type}

instance (g : Graph α) (a b : String) : Decidable (TransGen g.LiesIn a b) :=
  decidable_of_iff (∃ n ∈ g.nodes, n.id = a ∧
      (n.parent.any fun p => decide (ReflTransGen g.LiesIn p b)) = true) <| by
    rw [TransGen.head'_iff]
    simp only [Option.any_eq_true, decide_eq_true_eq]
    constructor
    · rintro ⟨n, hn, ha, p, hp, hpath⟩
      exact ⟨p, ⟨n, hn, ha, hp⟩, hpath⟩
    · rintro ⟨p, ⟨n, hn, ha, hp⟩, hpath⟩
      exact ⟨n, hn, ha, p, hp, hpath⟩

/-- A node lies, at whatever depth, in one that is collapsed. -/
def Covered (g : Graph α) (n : Node α) : Prop :=
  ∃ m ∈ g.nodes, TransGen g.LiesIn n.id m.id ∧ m.collapsed = true

instance (g : Graph α) (n : Node α) : Decidable (g.Covered n) :=
  inferInstanceAs (Decidable (∃ m ∈ g.nodes, TransGen g.LiesIn n.id m.id ∧ m.collapsed = true))

/-- Of the collapsed nodes that a node lies in, the one that all others lie in. -/
structure Outermost (g : Graph α) (n a : Node α) : Prop where
  mem : a ∈ g.nodes
  around : TransGen g.LiesIn n.id a.id
  collapsed : a.collapsed = true
  outer : ∀ m ∈ g.nodes, TransGen g.LiesIn n.id m.id → m.collapsed = true →
    ReflTransGen g.LiesIn m.id a.id

variable {g : Graph α}

/-- There is one outermost node at most. -/
theorem Outermost.unique (hids : (g.nodes.map Node.id).Nodup) (hnest : g.WellNested)
    {n a b : Node α} (ha : g.Outermost n a) (hb : g.Outermost n b) : a = b := by
  have hab := hb.outer a ha.mem ha.around ha.collapsed
  have hba := ha.outer b hb.mem hb.around hb.collapsed
  rcases reflTransGen_iff_eq_or_transGen.mp hab with heq | hab
  · exact eq_of_id_eq hids ha.mem hb.mem heq.symm
  · exact absurd (hab.trans_left hba) (hnest a.id)

/-! ## One step up -/

section Steps

variable (hids : (g.nodes.map Node.id).Nodup)
include hids

theorem liesIn_iff {n : Node α} (hn : n ∈ g.nodes) {p : String} :
    g.LiesIn n.id p ↔ n.parent = some p := by
  constructor
  · rintro ⟨m, hm, hid, hp⟩
    rwa [← eq_of_id_eq hids hm hn hid]
  · exact fun hp => ⟨n, hn, rfl, hp⟩

theorem not_covered_of_no_parent {n : Node α} (hn : n ∈ g.nodes) (hp : n.parent = none) :
    ¬ g.Covered n := by
  rintro ⟨m, -, hpath, -⟩
  obtain ⟨p, hlies, -⟩ := TransGen.head'_iff.mp hpath
  rw [liesIn_iff hids hn, hp] at hlies
  cases hlies

/-- What a node lies in is its parent, or what its parent lies in. -/
theorem transGen_iff_of_parent {n above : Node α} (hn : n ∈ g.nodes)
    (hp : n.parent = some above.id) {b : String} :
    TransGen g.LiesIn n.id b ↔ b = above.id ∨ TransGen g.LiesIn above.id b := by
  rw [TransGen.head'_iff]
  constructor
  · rintro ⟨p, hlies, hpath⟩
    rw [liesIn_iff hids hn, hp, Option.some.injEq] at hlies
    rw [← hlies] at hpath
    exact reflTransGen_iff_eq_or_transGen.mp hpath
  · intro h
    exact ⟨above.id, (liesIn_iff hids hn).mpr hp, reflTransGen_iff_eq_or_transGen.mpr h⟩

theorem covered_iff_of_parent {n above : Node α} (hn : n ∈ g.nodes) (ha : above ∈ g.nodes)
    (hp : n.parent = some above.id) :
    g.Covered n ↔ above.collapsed = true ∨ g.Covered above := by
  constructor
  · rintro ⟨m, hm, hpath, hc⟩
    rcases (transGen_iff_of_parent hids hn hp).mp hpath with hid | hpath
    · exact Or.inl (eq_of_id_eq hids hm ha hid ▸ hc)
    · exact Or.inr ⟨m, hm, hpath, hc⟩
  · rintro (hc | ⟨m, hm, hpath, hc⟩)
    · exact ⟨above, ha, (transGen_iff_of_parent hids hn hp).mpr (Or.inl rfl), hc⟩
    · exact ⟨m, hm, (transGen_iff_of_parent hids hn hp).mpr (Or.inr hpath), hc⟩

theorem outermost_of_parent {n above a : Node α} (hn : n ∈ g.nodes)
    (hp : n.parent = some above.id) (h : g.Outermost above a) : g.Outermost n a := by
  refine ⟨h.mem, (transGen_iff_of_parent hids hn hp).mpr (Or.inr h.around), h.collapsed, ?_⟩
  intro m hm hpath hc
  rcases (transGen_iff_of_parent hids hn hp).mp hpath with hid | hpath
  · rw [hid]
    exact h.around.to_reflTransGen
  · exact h.outer m hm hpath hc

end Steps

/-! ## The walk to a collapsed node -/

/-- What the walk stops at is collapsed and lies on the way up. -/
theorem exists_collapsed_of_climbs {pending : List String} {p : String}
    (hc : g.climbsToCollapsed pending p = true) :
    ∃ m ∈ g.nodes, ReflTransGen g.LiesIn p m.id ∧ m.collapsed = true := by
  induction pending, p using climbsToCollapsed.induct (g := g) with
  | case1 pending p hmem hnone =>
    rw [climbsToCollapsed, if_pos hmem, hnone] at hc
    cases hc
  | case2 pending p hmem n hfound ih =>
    obtain ⟨hn, rfl⟩ := mem_of_lookup? hfound
    rw [climbsToCollapsed, if_pos hmem, hfound] at hc
    rcases Bool.or_eq_true_iff.mp hc with hcollapsed | hup
    · exact ⟨n, hn, .refl, hcollapsed⟩
    · cases hp : n.parent with
      | none =>
        rw [hp] at hup
        cases hup
      | some above =>
        rw [hp] at hup
        obtain ⟨m, hm, hpath, hcollapsed⟩ := ih above hup
        exact ⟨m, hm, .head ⟨n, hn, rfl, hp⟩ hpath, hcollapsed⟩
  | case3 pending p hmem =>
    rw [climbsToCollapsed, if_neg hmem] at hc
    cases hc

section Climb

variable (hids : (g.nodes.map Node.id).Nodup)
include hids

/-- Where the walk stops at nothing, nothing on the way up is collapsed.  What was visited is not
collapsed and leads to the place of the walk or to what was visited; so nothing is missed where the
way comes back to it. -/
theorem not_collapsed_of_not_climbs {pending : List String} {p : String}
    (hc : g.climbsToCollapsed pending p = false)
    (hvisited : ∀ n ∈ g.nodes, ReflTransGen g.LiesIn p n.id → n.id ∉ pending →
      n.collapsed = false ∧ ∀ q, n.parent = some q → q = p ∨ q ∉ pending) :
    ∀ m ∈ g.nodes, ReflTransGen g.LiesIn p m.id → m.collapsed = false := by
  induction pending, p using climbsToCollapsed.induct (g := g) with
  | case1 pending p hmem hnone =>
    intro m hm hpath
    have hlies : ∃ n ∈ g.nodes, n.id = p := by
      rcases reflTransGen_iff_eq_or_transGen.mp hpath with heq | hpath
      · exact ⟨m, hm, heq⟩
      · obtain ⟨q, ⟨n, hn, hid, -⟩, -⟩ := TransGen.head'_iff.mp hpath
        exact ⟨n, hn, hid⟩
    obtain ⟨n, hn, hid⟩ := hlies
    rw [(lookup?_eq_some_iff hids).mpr ⟨hn, hid⟩] at hnone
    cases hnone
  | case2 pending p hmem n hfound ih =>
    obtain ⟨hn, rfl⟩ := mem_of_lookup? hfound
    rw [climbsToCollapsed, if_pos hmem, hfound] at hc
    obtain ⟨hcollapsed, hup⟩ := Bool.or_eq_false_iff.mp hc
    intro m hm hpath
    rcases reflTransGen_iff_eq_or_transGen.mp hpath with heq | hpath
    · rw [eq_of_id_eq hids hm hn heq]
      exact hcollapsed
    obtain ⟨above, hlies, hpath⟩ := TransGen.head'_iff.mp hpath
    have hp := (liesIn_iff hids hn).mp hlies
    rw [hp] at hup
    refine ih above hup (fun k hk hkpath hkout => ?_) m hm hpath
    by_cases hkn : k.id = n.id
    · rw [eq_of_id_eq hids hk hn hkn]
      refine ⟨hcollapsed, fun q hq => Or.inl ?_⟩
      rw [hp] at hq
      exact (Option.some.inj hq).symm
    · have hkvisited : k.id ∉ pending := fun hin => hkout (Search.mem_without.mpr ⟨hin, hkn⟩)
      obtain ⟨hkcollapsed, hkparent⟩ := hvisited k hk (.head hlies hkpath) hkvisited
      refine ⟨hkcollapsed, fun q hq => Or.inr fun hin => ?_⟩
      obtain ⟨hqin, hqn⟩ := Search.mem_without.mp hin
      exact (hkparent q hq).elim hqn fun hout => hout hqin
  | case3 pending p hmem =>
    intro m hm hpath
    have hout : ∀ q, ReflTransGen g.LiesIn p q → q ∉ pending := by
      intro q hq
      induction hq with
      | refl => exact hmem
      | tail hpath hlies ih =>
        obtain ⟨n, hn, rfl, hp⟩ := hlies
        exact ((hvisited n hn hpath ih).2 _ hp).elim (fun heq => heq ▸ hmem) fun hout => hout
    exact (hvisited m hm hpath (hout m.id hpath)).1

/-- Unless a node lies in itself, the walk from it finds out whether it is covered. -/
theorem isCovered_iff {n : Node α} (hn : n ∈ g.nodes) (hring : ¬ TransGen g.LiesIn n.id n.id) :
    g.isCovered n = true ↔ g.Covered n := by
  rw [isCovered]
  cases hp : n.parent with
  | none => simp [not_covered_of_no_parent hids hn hp]
  | some p =>
    have hlies : g.LiesIn n.id p := ⟨n, hn, rfl, hp⟩
    rw [Option.any_some]
    constructor
    · intro hc
      obtain ⟨m, hm, hpath, hcollapsed⟩ := exists_collapsed_of_climbs hc
      exact ⟨m, hm, .head' hlies hpath, hcollapsed⟩
    · rintro ⟨m, hm, hpath, hcollapsed⟩
      obtain ⟨q, hq, hpath⟩ := TransGen.head'_iff.mp hpath
      rw [liesIn_iff hids hn, hp, Option.some.injEq] at hq
      by_contra hc
      rw [Bool.not_eq_true] at hc
      have hnone := not_collapsed_of_not_climbs hids hc (fun k hk hkpath hkout => ?_) m hm (hq ▸ hpath)
      · rw [hnone] at hcollapsed
        cases hcollapsed
      · have hkn : k.id = n.id := by
          by_contra hne
          exact hkout (Search.mem_without.mpr ⟨List.mem_map_of_mem hk, hne⟩)
        exact absurd (.head' hlies (hkn ▸ hkpath)) hring

theorem mem_hidden_iff {n : Node α} (hn : n ∈ g.nodes) (hring : ¬ TransGen g.LiesIn n.id n.id) :
    n.id ∈ g.hidden ↔ g.Covered n := by
  rw [← isCovered_iff hids hn hring, hidden, List.mem_map]
  constructor
  · rintro ⟨m, hm, hid⟩
    obtain ⟨hmem, hc⟩ := List.mem_filter.mp hm
    rwa [← eq_of_id_eq hids hmem hn hid]
  · exact fun hc => ⟨n, List.mem_filter.mpr ⟨hn, hc⟩, rfl⟩

end Climb

/-! ## The walk to the one in whose place a node is drawn -/

section Walks

variable (h : g.Sound) (hnest : g.WellNested)
include h

theorem exists_above {n : Node α} (hn : n ∈ g.nodes) {p : String} (hp : n.parent = some p) :
    ∃ above ∈ g.nodes, above.id = p ∧ g.lookup? p = some above := by
  obtain ⟨above, ha, hid, -⟩ := h.parent_group n hn p hp
  exact ⟨above, ha, hid, (lookup?_eq_some_iff h.nodup_ids).mpr ⟨ha, hid⟩⟩

include hnest

omit h in
/-- A walk drops each id that it has visited, and it comes to none of them again. -/
theorem mem_pending_above {n above : Node α} (hn : n ∈ g.nodes) (hp : n.parent = some above.id)
    {pending : List String} (hpending : ∀ q ∈ g.ids, ReflTransGen g.LiesIn n.id q → q ∈ pending) :
    ∀ q ∈ g.ids, ReflTransGen g.LiesIn above.id q → q ∈ Search.without n.id pending := by
  intro q hq hpath
  have hup : TransGen g.LiesIn n.id q := .head' ⟨n, hn, rfl, hp⟩ hpath
  refine Search.mem_without.mpr ⟨hpending q hq hup.to_reflTransGen, ?_⟩
  intro hid
  rw [hid] at hup
  exact hnest n.id hup

theorem visible_eq : g.visible = g.nodes.filter fun n => ¬ g.Covered n := by
  refine List.filter_congr fun n hn => ?_
  rw [Bool.eq_iff_iff, Bool.not_eq_true', ← Bool.not_eq_true, List.contains_iff_mem,
    mem_hidden_iff h.nodup_ids hn (hnest n.id), decide_eq_true_eq]

/-- What is drawn in the place of a node. -/
structure Stands (g : Graph α) (n a : Node α) : Prop where
  mem : a ∈ g.nodes
  not_covered : ¬ g.Covered a
  eq_self : ¬ g.Covered n → a = n
  outermost : g.Covered n → g.Outermost n a

/-- The walk stops at the first node that is not covered, which is the outermost that is collapsed:
one further out would cover it. -/
theorem stands_standIn : ∀ n ∈ g.nodes, ∀ pending,
    (∀ q ∈ g.ids, ReflTransGen g.LiesIn n.id q → q ∈ pending) →
    g.Stands n (g.standIn g.hidden pending n) := by
  refine hnest.climbing fun n hn ih pending hpending => ?_
  have hmem : n.id ∈ pending := hpending n.id (List.mem_map_of_mem hn) .refl
  rw [standIn, if_pos hmem]
  by_cases hc : g.Covered n
  · rw [if_pos (List.contains_iff_mem.mpr ((mem_hidden_iff h.nodup_ids hn (hnest n.id)).mpr hc))]
    cases hp : n.parent with
    | none => exact absurd hc (not_covered_of_no_parent h.nodup_ids hn hp)
    | some p =>
      obtain ⟨above, ha, rfl, habove⟩ := exists_above h hn hp
      rw [Option.bind_some, habove]
      dsimp only
      have hup := ih above.id above hp habove _ (mem_pending_above hnest hn hp hpending)
      refine ⟨hup.mem, hup.not_covered, fun hnot => absurd hc hnot, fun _ => ?_⟩
      by_cases hca : g.Covered above
      · exact outermost_of_parent h.nodup_ids hn hp (hup.outermost hca)
      · rw [hup.eq_self hca]
        have hcollapsed : above.collapsed = true :=
          ((covered_iff_of_parent h.nodup_ids hn ha hp).mp hc).resolve_right hca
        refine ⟨ha, .single ⟨n, hn, rfl, hp⟩, hcollapsed, fun m hm hpath hcm => ?_⟩
        rcases (transGen_iff_of_parent h.nodup_ids hn hp).mp hpath with hid | hpath
        · rw [hid]
        · exact absurd ⟨m, hm, hpath, hcm⟩ hca
  · rw [if_neg fun hin => hc ((mem_hidden_iff h.nodup_ids hn (hnest n.id)).mp (List.contains_iff_mem.mp hin))]
    exact ⟨hn, hc, fun _ => rfl, fun hcovered => absurd hcovered hc⟩

theorem stands_anchor {n : Node α} (hn : n ∈ g.nodes) : g.Stands n (g.anchor g.hidden n) :=
  stands_standIn h hnest n hn g.ids fun _ hq _ => hq

end Walks

/-! ## A frame -/

variable [Scalar α]

omit [Scalar α] in
/-- In a table over the nodes, each node has its own entry. -/
theorem find?_ofList_nodes {β : Type} (hids : (g.nodes.map Node.id).Nodup) (value : Node α → β)
    {n : Node α} (hn : n ∈ g.nodes) :
    Keyed.find? n.id (Keyed.ofList (g.nodes.map fun k => (k.id, value k))) = some (value n) := by
  have hfound : g.nodes.findRev? (·.id == n.id) = some n :=
    (lookup?_eq_some_iff hids).mpr ⟨hn, rfl⟩
  rw [Keyed.find?_ofList_map Node.id, hfound]
  rfl

theorem find?_rects (hids : (g.nodes.map Node.id).Nodup) (m : Metrics α) (o : Overlay α)
    {n : Node α} (hn : n ∈ g.nodes) :
    Keyed.find? n.id (g.rects m o) = some (g.displayRect m (o.merged g) n) :=
  find?_ofList_nodes hids (g.displayRect m (o.merged g)) hn

end Graph

namespace Engine

variable {α : Type} [Scalar α]

/-- An edge is drawn between what stands for its ends, unless that is one node. -/
theorem renderEdge?_eq {g : Graph α} (h : g.Sound) (hnest : g.WellNested) (e : Engine α)
    (m : Metrics α) (o : Overlay α) {edge : Edge} {source target : Node α} (hs : source ∈ g.nodes)
    (ht : target ∈ g.nodes) (hsid : source.id = edge.source) (htid : target.id = edge.target) :
    e.renderEdge? m g g.hidden (g.rects m o) edge =
      if (g.anchor g.hidden source).id ≠ (g.anchor g.hidden target).id then
        some ⟨edge,
          e.viewport.toScreen
            ((g.displayRect m (o.merged g) (g.anchor g.hidden source)).outputPin m),
          e.viewport.toScreen
            ((g.displayRect m (o.merged g) (g.anchor g.hidden target)).inputPin m)⟩
      else none := by
  have hsource := (Graph.lookup?_eq_some_iff h.nodup_ids).mpr ⟨hs, hsid⟩
  have htarget := (Graph.lookup?_eq_some_iff h.nodup_ids).mpr ⟨ht, htid⟩
  have hstart := Graph.find?_rects h.nodup_ids m o (Graph.stands_anchor h hnest hs).mem
  have hfinish := Graph.find?_rects h.nodup_ids m o (Graph.stands_anchor h hnest ht).mem
  simp only [renderEdge?, hsource, htarget, Option.bind_eq_bind, Option.bind_some, hstart, hfinish]
  by_cases hsame : (g.anchor g.hidden source).id = (g.anchor g.hidden target).id
  · simp [hsame]
  · simp [hsame]

/-- What a frame holds where the graph is sound and well nested: in the order of the graph, every
node that lies in no collapsed one, and every edge whose ends are not stood for by one node.  A node
that is not drawn is stood for by the outermost collapsed node that it lies in, which is drawn. -/
theorem render_of_wellNested (e : Engine α) {s : Store α} (h : s.graph.Sound)
    (hnest : s.graph.WellNested) :
    let g := s.graph
    let rect := g.displayRect s.metrics (e.overlay.merged g)
    (e.render s).nodes = (g.nodes.filter fun n => ¬ g.Covered n).map (fun n =>
      e.renderNode g (e.render s).selection n (rect n)) ∧
    ∃ anchor : String → Node α,
      (∀ n ∈ g.nodes, g.Stands n (anchor n.id)) ∧
      (e.render s).edges =
        (g.edges.filter fun d => (anchor d.source).id ≠ (anchor d.target).id).map fun d =>
          ⟨d, e.viewport.toScreen ((rect (anchor d.source)).outputPin s.metrics),
            e.viewport.toScreen ((rect (anchor d.target)).inputPin s.metrics)⟩ := by
  intro g rect
  constructor
  · show g.visible.filterMap _ = _
    rw [Graph.visible_eq h hnest, ← List.filterMap_eq_map]
    refine List.filterMap_congr fun n hn => ?_
    rw [Graph.find?_rects h.nodup_ids s.metrics e.overlay (List.mem_filter.mp hn).1]
    rfl
  · obtain ⟨output, -, -⟩ := List.countP_pos_iff.mp (h.one_output ▸ Nat.one_pos)
    let anchor (id : String) : Node α := ((g.lookup? id).map (g.anchor g.hidden)).getD output
    have hanchor : ∀ n ∈ g.nodes, anchor n.id = g.anchor g.hidden n := by
      intro n hn
      have hfound := (Graph.lookup?_eq_some_iff h.nodup_ids).mpr ⟨hn, rfl⟩
      show ((g.lookup? n.id).map _).getD output = _
      rw [hfound]
      rfl
    refine ⟨anchor, fun n hn => ?_, ?_⟩
    · rw [hanchor n hn]
      exact Graph.stands_anchor h hnest hn
    · rw [← List.filterMap_eq_map, List.filterMap_filter]
      refine List.filterMap_congr fun d hd => ?_
      obtain ⟨hsource, htarget⟩ := h.ends_mem d hd
      obtain ⟨source, hs, hsid⟩ := List.mem_map.mp hsource
      obtain ⟨target, ht, htid⟩ := List.mem_map.mp htarget
      simp only [Function.comp_apply, decide_eq_true_eq, ← hsid, ← htid, hanchor source hs,
        hanchor target ht]
      exact renderEdge?_eq h hnest e s.metrics e.overlay hs ht hsid htid

end Engine

namespace Store

/-- A lens in a collapsed group, in an expanded one, in a collapsed one; it feeds a camera. -/
def boxed : List (Operation Float) :=
  [.addNode .lens ⟨0, 0⟩, .addNode .group ⟨0, 0⟩, .addNode .group ⟨0, 0⟩, .addNode .group ⟨0, 0⟩,
    .addConnected "output-1" .cameraRoot, .addEdge "lens-2" "camera_root-6",
    .setParent "lens-2" (some "group-3"), .setParent "group-3" (some "group-4"),
    .setParent "group-4" (some "group-5"), .setCollapsed "group-4" false []]

theorem render_of_boxed :
    let s := (startWith .counting usualMetrics).run boxed
    let e : Engine Float := .ofSize 1280 800
    s.graph.Sound ∧ s.graph.WellNested ∧
      (e.render s).nodes.map RenderNode.id = ["output-1", "group-5", "camera_root-6"] ∧
      ∃ anchor : String → Node Float, (∀ n ∈ s.graph.nodes, s.graph.Stands n (anchor n.id)) ∧
        (e.render s).edges.map RenderEdge.edge =
          s.graph.edges.filter fun d => (anchor d.source).id ≠ (anchor d.target).id := by
  intro s e
  have hsound : s.graph.Sound := ((sound_startWith _ _).run (by decide +kernel)).graph
  have hnest : s.graph.WellNested := by decide +kernel
  obtain ⟨hnodes, anchor, hstands, hedges⟩ := e.render_of_wellNested hsound hnest
  refine ⟨hsound, hnest, ?_, anchor, hstands, ?_⟩
  · rw [hnodes, List.map_map]
    decide +kernel
  · rw [hedges, List.map_map]
    exact List.map_id _

end Store
end PromptCanvas
