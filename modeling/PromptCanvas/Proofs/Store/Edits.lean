import PromptCanvas.Proofs.Graph.Sound
import PromptCanvas.Store.Edit

/-!
# Edits keep a store sound

A store is sound if its graph is and if its links are those of the graph's edges.  Each edit keeps
it so, provided that the ids which it draws are new to the graph.  What an edit does to the graph is
one of the changes of a sound graph, or two in a row.
-/

namespace PromptCanvas

/-! ## Judging edges -/

/-- Nothing is against an edge exactly if both ends are there and differ, the edge is new, their
kinds allow it and it closes no cycle. -/
theorem rejection?_eq_none_iff {kindOf : String → Option Kind} {links : Links}
    {source target : String} :
    rejection? kindOf links source target = none ↔
      ∃ k l, kindOf source = some k ∧ kindOf target = some l ∧ source ≠ target ∧
        target ∉ links.targets source ∧ k.canFeed l = true ∧
        ¬ links.createsCycle source target = true := by
  unfold rejection?
  cases hs : kindOf source with
  | none => simp
  | some k =>
    cases ht : kindOf target with
    | none => simp
    | some l =>
      by_cases hloop : source = target
      · simp [hloop]
      · by_cases hnew : target ∈ links.targets source
        · simp [hloop, hnew]
        · by_cases hfeed : k.canFeed l = true
          · simp [hloop, hnew, hfeed]
          · simp [hloop, hnew, hfeed]

/-- An edge that nothing is against may be added to a sound graph. -/
theorem Graph.Sound.add_edge_of_rejection {α : Type} {g : Graph α} (h : g.Sound) {e : Edge}
    (hid : e.id ∉ g.edges.map Edge.id)
    (hr : rejection? g.kindOf (.ofEdges g.edges) e.source e.target = none) :
    (Graph.mk g.nodes (g.edges ++ [e])).Sound := by
  obtain ⟨k, l, hk, hl, hloop, hnew, hfeed, hcycle⟩ := rejection?_eq_none_iff.mp hr
  obtain ⟨m, hm, hs, rfl⟩ := Graph.exists_of_kindOf hk
  obtain ⟨n, hn, ht, rfl⟩ := Graph.exists_of_kindOf hl
  rw [Links.mem_targets_ofEdges] at hnew
  rw [Links.createsCycle_ofEdges_iff] at hcycle
  exact h.add_edge hid hm hs hn ht hloop hnew hfeed hcycle

namespace Store

variable {α : Type} {s : Store α}

/-- The graph is sound and the links are those of its edges. -/
structure Sound (s : Store α) : Prop where
  graph : s.graph.Sound
  links : s.links = .ofEdges s.graph.edges

/-! ## Changing nodes and edges -/

theorem sound_new_node {g : Graph α} (h : g.Sound) {kind : Kind} (hk : kind ≠ .output) {id : String}
    (hid : id ∉ g.allIds) (position : Point α) :
    (Graph.mk (g.nodes ++ [⟨id, kind, kind.starting, position, true, none⟩]) g.edges).Sound := by
  refine h.add_node (fun hmem => hid (List.mem_append_left _ hmem)) ?_ rfl (Kind.fits_starting kind)
  exact beq_eq_false_iff_ne.mpr hk

theorem Sound.addNode (h : s.Sound) {kind : Kind} {position : Point α}
    (hid : s.ids.drawn < (s.addNode kind position).1.ids.drawn →
      s.ids.peek kind.name ∉ s.graph.allIds) :
    (s.addNode kind position).1.Sound := by
  by_cases hk : kind = .output
  · rw [hk]; exact h
  · rw [Store.addNode, if_neg (by simpa using hk)] at hid ⊢
    have hnew := hid (Nat.lt_succ_self s.ids.drawn)
    exact ⟨sound_new_node h.graph hk hnew position, h.links⟩

theorem Sound.updateAttributes (h : s.Sound) (id : String) (changes : List (String × Json)) :
    (s.updateAttributes id changes).1.Sound := by
  unfold Store.updateAttributes
  cases hn : s.graph.node? id with
  | none => exact h
  | some n =>
    obtain ⟨hmem, rfl⟩ := Graph.mem_of_node? hn
    -- Every node that is replaced is the node whose attributes were changed.
    have hsame : ∀ m ∈ s.graph.nodes, m.id = n.id → m = n := fun m hm hid =>
      Graph.eq_of_id_eq h.graph.nodup_ids hm hmem hid
    dsimp only
    cases hp : n.kind.patchAttributes n.attributes changes with
    | error e => exact h
    | ok attributes =>
      refine ⟨h.graph.mapNode ?_ ?_ ?_ ?_, h.links⟩
      · exact fun m _ hid => hid.symm
      · exact fun m hm hid => by rw [hsame m hm hid]
      · exact fun m _ _ => h.graph.parent_group n hmem
      · exact fun m _ _ => Kind.fits_of_patchAttributes hp

theorem exists_placedBy (positions : List (String × Point α)) (n : Node α) :
    ∃ p, placedBy positions n = { n with position := p } := by
  unfold placedBy
  split
  · exact ⟨_, rfl⟩
  · exact ⟨n.position, rfl⟩

theorem Sound.setCollapsed (h : s.Sound) (id : String) (collapsed : Bool)
    (positions : List (String × Point α)) : (s.setCollapsed id collapsed positions).1.Sound := by
  unfold Store.setCollapsed
  split
  · exact h
  · split
    · exact h
    · have hflagged : (s.graph.mapNode id fun n => { n with collapsed }).Sound :=
        h.graph.mapNode (fun _ _ _ => rfl) (fun _ _ _ => rfl)
          (fun n hn _ => h.graph.parent_group n hn) (fun n hn _ => h.graph.fits n hn)
      exact ⟨hflagged.map_positions (exists_placedBy positions), h.links⟩

theorem exists_group_of_usableGroup {id group : String} (h : s.usableGroup id group = true) :
    ∃ m ∈ s.graph.nodes, m.id = group ∧ m.kind = .group := by
  rw [usableGroup, Bool.and_eq_true] at h
  cases hm : s.graph.node? group with
  | none => rw [hm] at h; exact absurd h.2 Bool.false_ne_true
  | some m =>
    rw [hm] at h
    exact ⟨m, (Graph.mem_of_node? hm).1, (Graph.mem_of_node? hm).2, eq_of_beq h.2⟩

theorem Sound.setParent (h : s.Sound) (id : String) (group : Option String) :
    (s.setParent id group).1.Sound := by
  unfold Store.setParent
  split
  · exact h
  · rename_i n hn
    split
    · rename_i hgroup
      obtain ⟨hmem, rfl⟩ := Graph.mem_of_node? hn
      have hsame : ∀ m ∈ s.graph.nodes, m.id = n.id → m = n := fun m hm hid =>
        Graph.eq_of_id_eq h.graph.nodup_ids hm hmem hid
      rw [Bool.and_eq_true] at hgroup
      refine ⟨h.graph.mapNode ?_ ?_ ?_ ?_, h.links⟩
      · exact fun m _ hid => hid.symm
      · exact fun m hm hid => by rw [hsame m hm hid]
      · intro m _ _ p hp
        have hp : group = some p := hp
        rw [hp] at hgroup
        exact exists_group_of_usableGroup hgroup.1
      · exact fun m _ _ => h.graph.fits n hmem
    · exact h

theorem Sound.addEdge (h : s.Sound) {source target : String}
    (hid : s.ids.drawn < (s.addEdge source target).1.ids.drawn →
      s.ids.peek edgeStem ∉ s.graph.allIds) :
    (s.addEdge source target).1.Sound := by
  unfold Store.addEdge at hid ⊢
  cases hr : s.refusal? source target with
  | some r => exact h
  | none =>
    rw [hr] at hid
    have hnew : s.ids.peek edgeStem ∉ s.graph.edges.map Edge.id := fun hmem =>
      hid (Nat.lt_succ_self s.ids.drawn) (List.mem_append_right _ hmem)
    rw [refusal?, h.links] at hr
    refine ⟨h.graph.add_edge_of_rejection (e := ⟨_, source, target⟩) hnew hr, ?_⟩
    show s.links.add source target = .ofEdges (s.graph.edges ++ [_])
    rw [h.links, Links.ofEdges_append]

theorem Sound.removeEdge (h : s.Sound) (id : String) : (s.removeEdge id).1.Sound := by
  unfold Store.removeEdge
  split
  · exact ⟨h.graph.remove_edges List.filter_sublist, rfl⟩
  · exact h

/-! ## Deleting nodes -/

theorem mem_deletable {ids : List String} {id : String} :
    id ∈ s.deletable ids ↔ ∃ n ∈ s.graph.nodes, n.id ∈ ids ∧ n.isOutput = false ∧ n.id = id := by
  simp [deletable, and_assoc]

theorem not_mem_deletable (h : s.Sound) (ids : List String) :
    ∀ n ∈ s.graph.nodes, n.isOutput = true → n.id ∉ s.deletable ids := by
  intro n hn hout hmem
  obtain ⟨m, hm, -, hm', hid⟩ := mem_deletable.mp hmem
  rw [Graph.eq_of_id_eq h.graph.nodup_ids hm hn hid, hout] at hm'
  cases hm'

/-- A node that has lost its group differs in its parent alone, which is none that is gone. -/
theorem exists_orphanedBy (ids : List String) (n : Node α) :
    ∃ q, orphanedBy ids n = { n with parent := q } ∧
      ∀ p, q = some p → n.parent = some p ∧ p ∉ ids := by
  unfold orphanedBy
  split
  · rename_i p hp
    split
    · exact ⟨none, rfl, fun _ h => nomatch h⟩
    · rename_i hids
      refine ⟨n.parent, rfl, fun q hq => ⟨hq, ?_⟩⟩
      rw [hp, Option.some.injEq] at hq
      rw [← hq]
      exact fun hmem => hids (List.contains_iff_mem.mpr hmem)
  · rename_i hp
    exact ⟨n.parent, rfl, fun q hq => absurd (hp.symm.trans hq) (by simp)⟩

/-- Nodes other than outputs go with the edges and the memberships that touch them. -/
theorem sound_without {g : Graph α} (h : g.Sound) {doomed : List String}
    (hdoomed : ∀ n ∈ g.nodes, n.isOutput = true → n.id ∉ doomed) :
    (Graph.mk ((g.nodes.filter fun n => !doomed.contains n.id).map (orphanedBy doomed))
      (g.edges.filter fun e => !doomed.contains e.source && !doomed.contains e.target)).Sound := by
  -- First the edges go, then the memberships; then nothing is left that needs the nodes.
  have hedges : (Graph.mk g.nodes (g.edges.filter fun e =>
      !doomed.contains e.source && !doomed.contains e.target)).Sound :=
    h.remove_edges List.filter_sublist
  have hparents : (Graph.mk (g.nodes.map (orphanedBy doomed)) (g.edges.filter fun e =>
      !doomed.contains e.source && !doomed.contains e.target)).Sound := by
    refine hedges.map_nodes ?_ ?_ ?_ ?_ <;> intro n hn <;>
      obtain ⟨q, hq, hp⟩ := exists_orphanedBy doomed n <;> rw [hq]
    · exact fun p hqp => h.parent_group n hn p (hp p hqp).1
    · exact h.fits n hn
  have hnodes := hparents.remove_nodes (fun n => !doomed.contains n.id) ?_ ?_ ?_
  · have hsame : (fun n => !doomed.contains n.id) ∘ orphanedBy doomed =
        fun n : Node α => !doomed.contains n.id := by
      funext n
      obtain ⟨q, hq, -⟩ := exists_orphanedBy doomed n
      show (!doomed.contains (orphanedBy doomed n).id) = _
      rw [hq]
    rw [List.filter_map, hsame] at hnodes
    exact hnodes
  · intro m hm hout
    obtain ⟨n, hn, rfl⟩ := List.mem_map.mp hm
    obtain ⟨q, hq, -⟩ := exists_orphanedBy doomed n
    rw [hq] at hout ⊢
    simpa using hdoomed n hn hout
  · intro e he m _ hend
    have hends := (List.mem_filter.mp he).2
    rw [Bool.and_eq_true] at hends
    rcases hend with hend | hend <;> rw [hend]
    · exact hends.1
    · exact hends.2
  · intro n' hn' _ m _ hparent
    obtain ⟨n, -, rfl⟩ := List.mem_map.mp hn'
    obtain ⟨q, hq, hp⟩ := exists_orphanedBy doomed n
    rw [hq] at hparent
    simpa using (hp m.id hparent).2

/-! ## Fresh outputs -/

variable [Scalar α]

theorem sound_freshOutput (ids : IdSource) : (Graph.mk [freshOutput (α := α) ids] []).Sound :=
  .single rfl rfl (Kind.fits_starting .output)

theorem sound_startWith (ids : IdSource) (metrics : Metrics α) : (startWith ids metrics).Sound :=
  ⟨sound_freshOutput ids, rfl⟩

theorem Sound.reset (s : Store α) : s.reset.Sound :=
  ⟨sound_freshOutput s.ids, rfl⟩

theorem Sound.commitPositions (h : s.Sound) (positions : List (String × Point α)) :
    (s.commitPositions positions).1.Sound := by
  unfold Store.commitPositions
  split
  · refine ⟨h.graph.map_positions fun n => ?_, h.links⟩
    split
    · exact exists_placedBy positions n
    · exact ⟨n.position, rfl⟩
  · exact h

/-- A sound store keeps its output, so no other is added when nodes are deleted. -/
theorem deleteNodes_of_sound (h : s.Sound) (ids : List String) :
    s.deleteNodes ids =
      if (s.deletable ids).isEmpty then (s, [])
      else
        let kept := (s.graph.nodes.filter fun n => !(s.deletable ids).contains n.id).map
          (orphanedBy (s.deletable ids))
        let edges := s.graph.edges.filter fun e =>
          !(s.deletable ids).contains e.source && !(s.deletable ids).contains e.target
        (s.commit ⟨kept, edges⟩ (.ofEdges edges), s.deletable ids) := by
  have hwithout := sound_without h.graph (not_mem_deletable h ids)
  unfold deleteNodes
  dsimp only
  split
  · rfl
  · rw [if_pos]
    rw [List.any_eq_true]
    exact List.countP_pos_iff.mp (hwithout.one_output ▸ Nat.one_pos)

theorem Sound.deleteNodes (h : s.Sound) (ids : List String) : (s.deleteNodes ids).1.Sound := by
  rw [deleteNodes_of_sound h]
  split
  · exact h
  · exact ⟨sound_without h.graph (not_mem_deletable h ids), rfl⟩

/-- A node is added beside another, with the edge that their kinds allow. -/
theorem Sound.addConnected (h : s.Sound) {anchorId : String} {kind : Kind}
    (hid : s.ids.drawn < (s.addConnected anchorId kind).1.ids.drawn →
      s.ids.peek kind.name ∉ s.graph.allIds)
    (hedge : s.ids.drawn + 1 < (s.addConnected anchorId kind).1.ids.drawn →
      s.ids.advance.peek edgeStem ∉ s.graph.allIds) :
    (s.addConnected anchorId kind).1.Sound := by
  unfold Store.addConnected at hid hedge ⊢
  cases ha : s.graph.node? anchorId with
  | none => exact h
  | some anchor =>
    obtain ⟨hanchor, rfl⟩ := Graph.mem_of_node? ha
    by_cases hk : kind = .output
    · rw [hk]; exact h
    · rw [ha] at hid hedge
      dsimp only at hid hedge ⊢
      rw [if_neg (by simpa using hk)] at hid hedge ⊢
      have hnode := fun hnew : s.ids.peek kind.name ∉ s.graph.allIds =>
        sound_new_node h.graph hk hnew (s.besidePosition anchor (kind.canFeed anchor.kind))
      by_cases hfeed : kind.canFeed anchor.kind = true
      · rw [if_pos hfeed] at hid hedge ⊢
        have hnew := hid (Nat.lt_succ_of_lt (Nat.lt_succ_self s.ids.drawn))
        refine ⟨h.graph.link_new (hnode hnew) (fun hmem => hnew (List.mem_append_left _ hmem)) hanchor
          (fun hmem => hedge (Nat.lt_succ_self _) (List.mem_append_right _ hmem)) ?_, rfl⟩
        exact Or.inl ⟨rfl, rfl, hfeed⟩
      · rw [if_neg hfeed] at hid hedge ⊢
        by_cases hback : anchor.kind.canFeed kind = true
        · rw [if_pos hback] at hid hedge ⊢
          have hnew := hid (Nat.lt_succ_of_lt (Nat.lt_succ_self s.ids.drawn))
          refine ⟨h.graph.link_new (hnode hnew) (fun hmem => hnew (List.mem_append_left _ hmem))
            hanchor (fun hmem => hedge (Nat.lt_succ_self _) (List.mem_append_right _ hmem)) ?_, rfl⟩
          exact Or.inr ⟨rfl, rfl, hback⟩
        · rw [if_neg hback] at hid ⊢
          exact ⟨hnode (hid (Nat.lt_succ_self s.ids.drawn)), rfl⟩

end Store
end PromptCanvas
