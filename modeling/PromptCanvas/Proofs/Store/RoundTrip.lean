import PromptCanvas.Proofs.Store.Loading

/-!
# Written and loaded again

A sound graph is loaded from the document it was written as, without a warning and without change.
Each pass of the loader meets what it would have repaired only in graphs that are not sound: every
entry is read as the node or edge that it was, no node is left out, every parent is a group, and
every edge is accepted when those before it are replayed first.  What a loader made of any document
is sound, so loading a second time changes nothing.
-/

namespace PromptCanvas

/-- Edges that are sound together are accepted one after the other. -/
theorem Graph.Sound.rejection?_eq_none {α : Type} {nodes : List (Node α)} {kept rest : List Edge}
    {e : Edge} (h : (Graph.mk nodes (kept ++ e :: rest)).Sound) :
    rejection? (Graph.mk nodes []).kindOf (.ofEdges kept) e.source e.target = none := by
  have he : e ∈ kept ++ e :: rest := List.mem_append_right kept List.mem_cons_self
  obtain ⟨hs, ht⟩ := h.ends_mem e he
  obtain ⟨m, hm, hs⟩ := List.mem_map.mp hs
  obtain ⟨n, hn, ht⟩ := List.mem_map.mp ht
  have hnew : ¬ Feeds kept e.source e.target := by
    rintro ⟨d, hd, hds, hdt⟩
    exact ne_of_nodup_map_append h.nodup_ends hd (Prod.ext hds hdt)
  have hcycle : ¬ Relation.ReflTransGen (Feeds kept) e.target e.source := by
    have hac : Acyclic (kept ++ [e] ++ rest) := List.append_cons kept e rest ▸ h.acyclic
    exact (acyclic_append_iff.mp (hac.mono (List.subset_append_left (kept ++ [e]) rest))).2
  rw [rejection?_eq_none_iff]
  refine ⟨m.kind, n.kind, ?_, ?_, h.no_loop e he, ?_, h.can_feed e he m hm n hn hs ht, ?_⟩
  · exact hs ▸ Graph.kindOf_of_mem (g := ⟨nodes, []⟩) h.nodup_ids hm
  · exact ht ▸ Graph.kindOf_of_mem (g := ⟨nodes, []⟩) h.nodup_ids hn
  · rw [Links.mem_targets_ofEdges]
    exact hnew
  · rw [Links.createsCycle_ofEdges_iff]
    exact hcycle

namespace Document

theorem keepNodes_map_toEntry {kept nodes : List (Node Float)}
    (h : Compatible (kept ++ nodes)) :
    keepNodes kept (nodes.map Node.toEntry) = .ok (kept ++ nodes, []) := by
  induction nodes generalizing kept with
  | nil => rw [List.append_nil]; rfl
  | cons n rest ih =>
    have hread := Node.ofEntry_toEntry (h.fits n (List.mem_append_right kept List.mem_cons_self))
    have hid : kept.any (fun m => m.id == n.id) = false := any_key_eq_false h.nodup_ids
    have hout : (n.isOutput && kept.any Node.isOutput) = false := by
      rw [Bool.and_eq_false_iff, or_iff_not_imp_left, Bool.not_eq_false]
      intro hn
      have hle := h.outputs_le
      rw [List.countP_append, List.countP_cons_of_pos hn] at hle
      have hzero : kept.countP Node.isOutput = 0 := by omega
      exact List.any_eq_false.mpr (List.countP_eq_zero.mp hzero)
    rw [List.append_cons] at h ⊢
    rw [List.map_cons, keepNodes, hread]
    dsimp only
    rw [hid, hout]
    exact ih h

theorem readEdges_map_toEntry (edges : List Edge) :
    readEdges (edges.map Edge.toEntry) = .ok (edges, []) := by
  induction edges with
  | nil => rfl
  | cons e rest ih =>
    rw [List.map_cons, readEdges, e.ofEntry_toEntry]
    dsimp only
    rw [ih]
    rfl

theorem edgesIn_map_toEntry (edges : List Edge) :
    edgesIn (edges.map Edge.toEntry) = (edges, []) :=
  (readEdges_eq_ok (readEdges_map_toEntry edges)).symm

/-- Edges that are sound together are all kept. -/
theorem keepEdges_of_sound {α : Type} {nodes : List (Node α)} {kept edges : List Edge}
    (h : (Graph.mk nodes (kept ++ edges)).Sound) :
    keepEdges (Graph.mk nodes []).kindOf kept (.ofEdges kept) edges =
      ((kept ++ edges, .ofEdges (kept ++ edges)), []) := by
  induction edges generalizing kept with
  | nil => rw [List.append_nil]; rfl
  | cons e rest ih =>
    have hid : kept.any (fun d => d.id == e.id) = false := any_key_eq_false h.nodup_edge_ids
    rw [keepEdges, h.rejection?_eq_none]
    dsimp only
    rw [hid, if_neg Bool.false_ne_true, ← Links.ofEdges_append, List.append_cons kept e rest]
    exact ih (List.append_cons kept e rest ▸ h)

theorem repairParent_of_sound {α : Type} {g : Graph α} (h : g.Sound) {n : Node α}
    (hn : n ∈ g.nodes) : repairParent (Graph.mk g.nodes []).kindOf n = (n, []) := by
  unfold repairParent
  cases hp : n.parent with
  | none => rfl
  | some p =>
    obtain ⟨m, hm, rfl, hk⟩ := h.parent_group n hn p hp
    have hkind := Graph.kindOf_of_mem (g := ⟨g.nodes, []⟩) h.nodup_ids hm
    dsimp only
    rw [hkind, hk]
    rfl

end Document

namespace Store

open Document

/-- A sound graph is loaded from its own document, without warnings and without change. -/
theorem load_toDocument (s : Store Float) {g : Graph Float} (h : g.Sound) :
    ∃ s', s.load g.toDocument = (s', .ok []) ∧ s'.graph = g := by
  have hcompatible : Compatible ([] ++ g.nodes) :=
    ⟨h.nodup_ids, Nat.le_of_eq h.one_output, h.fits⟩
  have hnodes : keepNodes [] (g.nodes.map Node.toEntry) = .ok (g.nodes, []) :=
    keepNodes_map_toEntry hcompatible
  have hout : g.nodes.any Node.isOutput = true :=
    List.any_eq_true.mpr (List.countP_pos_iff.mp (h.one_output ▸ Nat.one_pos))
  have hall : completed s.ids g.nodes = g.nodes := if_pos hout
  have hparents : g.nodes.map (repairParent (Graph.mk g.nodes []).kindOf) =
      g.nodes.map fun n => (n, []) :=
    List.map_congr_left fun n hn => repairParent_of_sound h hn
  have hgraph : (Graph.mk g.nodes ([] ++ g.edges)).Sound := h
  have hedges : keepEdges (Graph.mk g.nodes []).kindOf [] [] g.edges =
      ((g.edges, .ofEdges g.edges), []) :=
    keepEdges_of_sound hgraph
  have hnode : (entries (members g.toDocument).1 "nodes") = (g.nodes.map Node.toEntry, []) := rfl
  have hedge : (entries (members g.toDocument).1 "edges") = (g.edges.map Edge.toEntry, []) := rfl
  have hsilent : s.loadWarnings g.toDocument g.nodes [] = [] := by
    have hmembers : (members g.toDocument).2 = [] := rfl
    have hcycle : hasCycle g.edges = false := hasCycle_eq_false_iff.mpr h.acyclic
    have hnone : (g.nodes.map fun n => (n, ([] : List LoadWarning))).flatMap Prod.snd = [] := by
      simp
    unfold loadWarnings
    simp only [hmembers, hnode, hedge, hall, hout, hparents, edgesIn_map_toEntry, hedges, hcycle,
      hnone, if_true, Bool.false_eq_true, if_false, List.append_nil]
  refine ⟨s.loaded g.toDocument g.nodes, ?_, ?_⟩
  · rw [load_eq_ok_iff, hnode, hedge, readEdges_map_toEntry]
    exact ⟨⟨_, rfl⟩, g.nodes, [], hnodes, rfl, hsilent.symm⟩
  · show Graph.mk (repaired (completed s.ids g.nodes)) (keepEdges _ [] [] _).1.1 = g
    rw [hall, hedge, edgesIn_map_toEntry]
    dsimp only
    rw [hedges, repaired, hparents, List.map_map]
    show Graph.mk (g.nodes.map id) g.edges = g
    rw [List.map_id]

/-- Whatever store it is loaded into, a sound graph is the same after it is written and loaded, and
so is every graph that was made of a document: no warning is given, the nodes and the edges are
there in their order, and the document that is written next is the same. -/
theorem written_graph_loads_unchanged (t : Store Float) :
    (∀ g : Graph Float, g.Sound →
      ∃ t', t.load g.toDocument = (t', .ok []) ∧ t'.graph = g ∧
        t'.graph.toDocument = g.toDocument) ∧
    ∀ (s s' : Store Float) (document : Json) (ws : List LoadWarning),
      s.load document = (s', .ok ws) →
      (s.ids.drawn < s'.ids.drawn → s.ids.peek Kind.output.name ∉ Document.ids document) →
      ∃ t', t.load s'.graph.toDocument = (t', .ok []) ∧ t'.graph = s'.graph ∧
        t'.graph.toDocument = s'.graph.toDocument := by
  constructor
  · intro g h
    obtain ⟨t', hload, hgraph⟩ := load_toDocument t h
    exact ⟨t', hload, hgraph, by rw [hgraph]⟩
  · intro s s' document ws h hid
    obtain ⟨t', hload, hgraph⟩ := load_toDocument t (sound_of_load_eq_ok h hid).graph
    exact ⟨t', hload, hgraph, by rw [hgraph]⟩

/-- A document with a node that comes twice, a dangling parent, an attribute that has to be read as
another type, a cycle, an edge from nowhere, and no output. -/
def tangled : Json := .obj [
  ("nodes", .arr [
    .obj [("id", .int 1), ("kind", .str "group")],
    .obj [("id", .str "1"), ("kind", .str "lens")],
    .obj [("id", .str "a"), ("kind", .str "camera_root"), ("parent_id", .int 1)],
    .obj [("id", .str "b"), ("kind", .str "assembler"), ("parent_id", .str "a")],
    .obj [("id", .str "c"), ("kind", .str "global_illumination"),
      ("attributes", .obj [("intensity", .str " 35 ")])]]),
  ("edges", .arr [
    .obj [("id", .int 1), ("source", .str "c"), ("target", .str "a")],
    .obj [("id", .int 2), ("source", .str "a"), ("target", .str "b")],
    .obj [("id", .int 2), ("source", .str "b"), ("target", .str "a")],
    .obj [("id", .int 3), ("source", .str "z"), ("target", .str "a")]])]

theorem tangled_loads_unchanged :
    let s := startWith .counting ⟨200, 48, 160, 24, 8, 6, 24, 16, 24, 0.2, 3, 0.1, 0.001⟩
    s.graph.Sound ∧ (∃ t, s.load s.graph.toDocument = (t, .ok []) ∧ t.graph = s.graph) ∧
      ∃ s' ws, s.load tangled = (s', .ok ws) ∧
        s.ids.peek Kind.output.name ∉ Document.ids tangled ∧
        ∃ t, s.load s'.graph.toDocument = (t, .ok []) ∧ t.graph = s'.graph := by
  intro s
  have hnew : s.ids.peek Kind.output.name ∉ Document.ids tangled := by decide +kernel
  have hsome : (s.load tangled).2.toOption.isSome = true := by decide +kernel
  obtain ⟨hgraph, hdocument⟩ := written_graph_loads_unchanged s
  have hsound := (sound_startWith .counting s.metrics).graph
  obtain ⟨t, ht, heq, -⟩ := hgraph s.graph hsound
  refine ⟨hsound, ⟨t, ht, heq⟩, ?_⟩
  obtain ⟨s', ws, hload⟩ := exists_load_eq_ok hsome
  obtain ⟨t', ht', heq', -⟩ := hdocument s s' tangled ws hload fun _ => hnew
  exact ⟨s', ws, hload, hnew, t', ht', heq'⟩

end Store
end PromptCanvas
