import Mathlib.Data.List.Nodup
import PromptCanvas.Proofs.Graph.Acyclicity
import PromptCanvas.Proofs.Node.Fit
import PromptCanvas.Store.Connection

/-!
# Sound graphs

What the store promises of its graph, and the few ways in which a graph may change without breaking
the promise: nodes are changed where they stand, one node or one edge is added, edges are removed,
nodes are removed.  Every change that the store makes is put together from these.
-/

namespace PromptCanvas

/-! ## Distinct keys -/

section Keys

variable {β γ : Type} {key : β → γ}

theorem nodup_map_append_singleton {bs : List β} {b : β} (h : (bs.map key).Nodup)
    (hb : key b ∉ bs.map key) : ((bs ++ [b]).map key).Nodup := by
  rw [List.map_append, List.nodup_append]
  refine ⟨h, List.nodup_singleton (key b), ?_⟩
  rintro k hk l hl rfl
  exact hb (List.mem_singleton.mp hl ▸ hk)

/-- Where keys are distinct, none comes a second time. -/
theorem ne_of_nodup_map_append {bs cs : List β} {b c : β} (h : ((bs ++ c :: cs).map key).Nodup)
    (hb : b ∈ bs) : key b ≠ key c := by
  rw [List.map_append, List.nodup_append] at h
  exact h.2.2 _ (List.mem_map_of_mem hb) _ (List.mem_map_of_mem List.mem_cons_self)

theorem any_key_eq_false [DecidableEq γ] {bs cs : List β} {c : β}
    (h : ((bs ++ c :: cs).map key).Nodup) : (bs.any fun b => key b == key c) = false := by
  rw [List.any_eq_false]
  intro b hb he
  exact ne_of_nodup_map_append h hb (eq_of_beq he)

end Keys

namespace Graph

variable {α : Type}

/-- The ids of the nodes and of the edges. -/
def allIds (g : Graph α) : List String := g.nodes.map Node.id ++ g.edges.map Edge.id

/-- What the store promises of its graph. -/
structure Sound (g : Graph α) : Prop where
  /-- There is exactly one output. -/
  one_output : g.nodes.countP Node.isOutput = 1
  nodup_ids : (g.nodes.map Node.id).Nodup
  nodup_edge_ids : (g.edges.map Edge.id).Nodup
  /-- Both ends of an edge are there. -/
  ends_mem : ∀ e ∈ g.edges, e.source ∈ g.nodes.map Node.id ∧ e.target ∈ g.nodes.map Node.id
  no_loop : ∀ e ∈ g.edges, e.source ≠ e.target
  /-- No two edges join the same nodes in the same direction. -/
  nodup_ends : (g.edges.map fun e => (e.source, e.target)).Nodup
  can_feed : ∀ e ∈ g.edges, ∀ m ∈ g.nodes, ∀ n ∈ g.nodes, m.id = e.source → n.id = e.target →
    m.kind.canFeed n.kind = true
  acyclic : Acyclic g.edges
  /-- A parent is a group that is there. -/
  parent_group : ∀ n ∈ g.nodes, ∀ p, n.parent = some p → ∃ m ∈ g.nodes, m.id = p ∧ m.kind = .group
  /-- The attributes are a record of the node's kind. -/
  fits : ∀ n ∈ g.nodes, n.kind.Fits n.attributes

/-! ## Looking up -/

theorem mem_of_node? {g : Graph α} {id : String} {n : Node α} (h : g.node? id = some n) :
    n ∈ g.nodes ∧ n.id = id := by
  rw [node?] at h
  have hid := List.find?_some h
  exact ⟨List.mem_of_find?_eq_some h, eq_of_beq hid⟩

theorem isSome_node?_iff {g : Graph α} {id : String} :
    (g.node? id).isSome = true ↔ id ∈ g.nodes.map Node.id := by
  rw [node?, List.find?_isSome, List.mem_map]
  simp only [beq_iff_eq]

theorem mem_of_lookup? {g : Graph α} {id : String} {n : Node α} (h : g.lookup? id = some n) :
    n ∈ g.nodes ∧ n.id = id := by
  rw [lookup?, List.findRev?_eq_find?_reverse] at h
  have hid := List.find?_some h
  exact ⟨List.mem_reverse.mp (List.mem_of_find?_eq_some h), eq_of_beq hid⟩

theorem exists_of_kindOf {g : Graph α} {id : String} {k : Kind} (h : g.kindOf id = some k) :
    ∃ n ∈ g.nodes, n.id = id ∧ n.kind = k := by
  obtain ⟨n, hn, hk⟩ := Option.map_eq_some_iff.mp h
  exact ⟨n, (mem_of_lookup? hn).1, (mem_of_lookup? hn).2, hk⟩

/-- Nodes with distinct ids are the same if their ids are. -/
theorem eq_of_id_eq {g : Graph α} (h : (g.nodes.map Node.id).Nodup) {m n : Node α}
    (hm : m ∈ g.nodes) (hn : n ∈ g.nodes) (hid : m.id = n.id) : m = n :=
  List.inj_on_of_nodup_map h hm hn hid

theorem node?_of_mem {g : Graph α} (hids : (g.nodes.map Node.id).Nodup) {n : Node α} (hn : n ∈ g.nodes) :
    g.node? n.id = some n := by
  cases hfound : g.node? n.id with
  | none =>
    rw [node?, List.find?_eq_none] at hfound
    exact absurd (beq_self_eq_true n.id) (hfound n hn)
  | some m =>
    obtain ⟨hm, hid⟩ := mem_of_node? hfound
    rw [eq_of_id_eq hids hm hn hid]

theorem kindOf_of_mem {g : Graph α} (h : (g.nodes.map Node.id).Nodup) {n : Node α}
    (hn : n ∈ g.nodes) : g.kindOf n.id = some n.kind := by
  cases hl : g.lookup? n.id with
  | none =>
    rw [lookup?, List.findRev?_eq_find?_reverse, List.find?_eq_none] at hl
    exact absurd (beq_self_eq_true n.id) (hl n (List.mem_reverse.mpr hn))
  | some m =>
    obtain ⟨hm, hid⟩ := mem_of_lookup? hl
    rw [kindOf, hl, eq_of_id_eq h hm hn hid]
    rfl

/-- Where ids are distinct, a node is looked up by its id. -/
theorem lookup?_eq_some_iff {g : Graph α} (h : (g.nodes.map Node.id).Nodup) {id : String}
    {n : Node α} : g.lookup? id = some n ↔ n ∈ g.nodes ∧ n.id = id := by
  constructor
  · exact mem_of_lookup?
  · rintro ⟨hn, rfl⟩
    obtain ⟨m, hm, -⟩ := Option.map_eq_some_iff.mp (kindOf_of_mem h hn)
    obtain ⟨hmem, hid⟩ := mem_of_lookup? hm
    rw [hm, eq_of_id_eq h hmem hn hid]

theorem exists_kindOf_iff {g : Graph α} {id : String} :
    (∃ k, g.kindOf id = some k) ↔ id ∈ g.nodes.map Node.id := by
  constructor
  · rintro ⟨k, hk⟩
    obtain ⟨n, hn, rfl, -⟩ := exists_of_kindOf hk
    exact List.mem_map_of_mem hn
  · intro hid
    obtain ⟨n, hn, hid⟩ := List.mem_map.mp hid
    have hfound : (g.nodes.reverse.find? (·.id == id)).isSome = true := by
      rw [List.find?_isSome]
      exact ⟨n, List.mem_reverse.mpr hn, beq_iff_eq.mpr hid⟩
    obtain ⟨m, hm⟩ := Option.isSome_iff_exists.mp hfound
    exact ⟨m.kind, by rw [kindOf, lookup?, List.findRev?_eq_find?_reverse, hm]; rfl⟩

/-! ## Changes that keep a graph sound -/

namespace Sound

variable {g : Graph α}

/-- A graph of one output is sound. -/
theorem single {n : Node α} (hout : n.isOutput = true) (hparent : n.parent = none)
    (hfits : n.kind.Fits n.attributes) : (Graph.mk [n] []).Sound where
  one_output := by simp [hout]
  nodup_ids := by simp
  nodup_edge_ids := List.nodup_nil
  ends_mem := fun _ he => absurd he List.not_mem_nil
  no_loop := fun _ he => absurd he List.not_mem_nil
  nodup_ends := List.nodup_nil
  can_feed := fun _ he => absurd he List.not_mem_nil
  acyclic := acyclic_nil
  parent_group := by
    intro m hm p hp
    rw [List.mem_singleton.mp hm, hparent] at hp
    cases hp
  fits := by
    intro m hm
    rw [List.mem_singleton.mp hm]
    exact hfits

/-- Nodes are changed where they stand, in anything but their ids and kinds. -/
theorem map_nodes (h : g.Sound) {change : Node α → Node α}
    (hid : ∀ n ∈ g.nodes, (change n).id = n.id)
    (hkind : ∀ n ∈ g.nodes, (change n).kind = n.kind)
    (hparent : ∀ n ∈ g.nodes, ∀ p, (change n).parent = some p →
      ∃ m ∈ g.nodes, m.id = p ∧ m.kind = .group)
    (hfits : ∀ n ∈ g.nodes, (change n).kind.Fits (change n).attributes) :
    (Graph.mk (g.nodes.map change) g.edges).Sound := by
  have hids : (g.nodes.map change).map Node.id = g.nodes.map Node.id := by
    rw [List.map_map]
    exact List.map_congr_left hid
  refine ⟨?_, ?_, h.nodup_edge_ids, ?_, h.no_loop, h.nodup_ends, ?_, h.acyclic, ?_, ?_⟩
  · rw [List.countP_map, ← h.one_output]
    refine List.countP_congr fun n hn => ?_
    show (change n).isOutput = true ↔ n.isOutput = true
    rw [Node.isOutput, Node.isOutput, hkind n hn]
  · rw [hids]
    exact h.nodup_ids
  · intro e he
    rw [hids]
    exact h.ends_mem e he
  · intro e he m' hm' n' hn' hs ht
    obtain ⟨m, hm, rfl⟩ := List.mem_map.mp hm'
    obtain ⟨n, hn, rfl⟩ := List.mem_map.mp hn'
    rw [hkind m hm, hkind n hn]
    exact h.can_feed e he m hm n hn ((hid m hm).symm.trans hs) ((hid n hn).symm.trans ht)
  · intro n' hn' p hp
    obtain ⟨n, hn, rfl⟩ := List.mem_map.mp hn'
    obtain ⟨m, hm, hmid, hmk⟩ := hparent n hn p hp
    exact ⟨change m, List.mem_map_of_mem hm, (hid m hm).trans hmid, (hkind m hm).trans hmk⟩
  · intro n' hn'
    obtain ⟨n, hn, rfl⟩ := List.mem_map.mp hn'
    exact hfits n hn

/-- The nodes of one id are changed, in anything but their ids and kinds. -/
theorem mapNode (h : g.Sound) {id : String} {change : Node α → Node α}
    (hid : ∀ n ∈ g.nodes, n.id = id → (change n).id = n.id)
    (hkind : ∀ n ∈ g.nodes, n.id = id → (change n).kind = n.kind)
    (hparent : ∀ n ∈ g.nodes, n.id = id → ∀ p, (change n).parent = some p →
      ∃ m ∈ g.nodes, m.id = p ∧ m.kind = .group)
    (hfits : ∀ n ∈ g.nodes, n.id = id → (change n).kind.Fits (change n).attributes) :
    (g.mapNode id change).Sound := by
  have hpos : ∀ n : Node α, n.id = id → (if n.id == id then change n else n) = change n :=
    fun n hi => if_pos (beq_iff_eq.mpr hi)
  have hneg : ∀ n : Node α, n.id ≠ id → (if n.id == id then change n else n) = n :=
    fun n hi => if_neg (fun hb => hi (eq_of_beq hb))
  refine h.map_nodes ?_ ?_ ?_ ?_ <;> intro n hn <;> by_cases hi : n.id = id
  · rw [hpos n hi]; exact hid n hn hi
  · rw [hneg n hi]
  · rw [hpos n hi]; exact hkind n hn hi
  · rw [hneg n hi]
  · rw [hpos n hi]; exact hparent n hn hi
  · rw [hneg n hi]; exact h.parent_group n hn
  · rw [hpos n hi]; exact hfits n hn hi
  · rw [hneg n hi]; exact h.fits n hn

theorem map_positions (h : g.Sound) {change : Node α → Node α}
    (hchange : ∀ n, ∃ p, change n = { n with position := p }) :
    (Graph.mk (g.nodes.map change) g.edges).Sound := by
  refine h.map_nodes ?_ ?_ ?_ ?_ <;> intro n hn <;> obtain ⟨p, hp⟩ := hchange n <;> rw [hp]
  · exact h.parent_group n hn
  · exact h.fits n hn

/-- A node with a new id is added that is no output and has no parent. -/
theorem add_node (h : g.Sound) {n : Node α} (hid : n.id ∉ g.nodes.map Node.id)
    (hout : n.isOutput = false) (hparent : n.parent = none) (hfits : n.kind.Fits n.attributes) :
    (Graph.mk (g.nodes ++ [n]) g.edges).Sound := by
  refine ⟨?_, ?_, h.nodup_edge_ids, ?_, h.no_loop, h.nodup_ends, ?_, h.acyclic, ?_, ?_⟩
  · simp [h.one_output, hout]
  · exact nodup_map_append_singleton h.nodup_ids hid
  · intro e he
    rw [List.map_append]
    exact ⟨List.mem_append_left _ (h.ends_mem e he).1, List.mem_append_left _ (h.ends_mem e he).2⟩
  · intro e he
    -- An end of an old edge is an old node, since the new id is none of theirs.
    have hold : ∀ m ∈ g.nodes ++ [n], m.id ∈ g.nodes.map Node.id → m ∈ g.nodes := by
      intro m hm hmem
      rcases List.mem_append.mp hm with hm | hm
      · exact hm
      · exact absurd (List.mem_singleton.mp hm ▸ hmem) hid
    intro m hm k hk hs ht
    have hm' := hold m hm (hs ▸ (h.ends_mem e he).1)
    have hk' := hold k hk (ht ▸ (h.ends_mem e he).2)
    exact h.can_feed e he m hm' k hk' hs ht
  · intro m hm p hp
    rcases List.mem_append.mp hm with hm | hm
    · obtain ⟨k, hk, hkp⟩ := h.parent_group m hm p hp
      exact ⟨k, List.mem_append_left _ hk, hkp⟩
    · rw [List.mem_singleton.mp hm, hparent] at hp
      cases hp
  · intro m hm
    rcases List.mem_append.mp hm with hm | hm
    · exact h.fits m hm
    · rw [List.mem_singleton.mp hm]
      exact hfits

/-- An edge with a new id is added between two nodes that it may join. -/
theorem add_edge (h : g.Sound) {e : Edge} {m n : Node α} (hid : e.id ∉ g.edges.map Edge.id)
    (hm : m ∈ g.nodes) (hs : m.id = e.source) (hn : n ∈ g.nodes) (ht : n.id = e.target)
    (hloop : e.source ≠ e.target) (hnew : ¬ Feeds g.edges e.source e.target)
    (hfeed : m.kind.canFeed n.kind = true)
    (hcycle : ¬ Relation.ReflTransGen (Feeds g.edges) e.target e.source) :
    (Graph.mk g.nodes (g.edges ++ [e])).Sound := by
  refine ⟨h.one_output, h.nodup_ids, ?_, ?_, ?_, ?_, ?_, acyclic_append_iff.mpr ⟨h.acyclic, hcycle⟩,
    h.parent_group, h.fits⟩
  · exact nodup_map_append_singleton h.nodup_edge_ids hid
  · intro d hd
    rcases List.mem_append.mp hd with hd | hd
    · exact h.ends_mem d hd
    · rw [List.mem_singleton.mp hd, ← hs, ← ht]
      exact ⟨List.mem_map_of_mem hm, List.mem_map_of_mem hn⟩
  · intro d hd
    rcases List.mem_append.mp hd with hd | hd
    · exact h.no_loop d hd
    · rw [List.mem_singleton.mp hd]
      exact hloop
  · refine nodup_map_append_singleton h.nodup_ends fun hmem => ?_
    obtain ⟨d, hd, heq⟩ := List.mem_map.mp hmem
    exact hnew ⟨d, hd, congrArg Prod.fst heq, congrArg Prod.snd heq⟩
  · intro d hd m' hm' n' hn' hs' ht'
    rcases List.mem_append.mp hd with hd | hd
    · exact h.can_feed d hd m' hm' n' hn' hs' ht'
    · rw [List.mem_singleton.mp hd] at hs' ht'
      rw [eq_of_id_eq h.nodup_ids hm' hm (hs'.trans hs.symm),
        eq_of_id_eq h.nodup_ids hn' hn (ht'.trans ht.symm)]
      exact hfeed

/-- No path leads from or to an id that no node has, other than to itself. -/
theorem eq_of_path_of_new (h : g.Sound) {a b : String}
    (hpath : Relation.ReflTransGen (Feeds g.edges) a b)
    (hnew : a ∉ g.nodes.map Node.id ∨ b ∉ g.nodes.map Node.id) : a = b := by
  rcases hnew with ha | hb
  · rcases hpath.cases_head with rfl | ⟨c, ⟨e, he, rfl, -⟩, -⟩
    · rfl
    · exact absurd (h.ends_mem e he).1 ha
  · rcases hpath.cases_tail with rfl | ⟨c, -, ⟨e, he, -, rfl⟩⟩
    · rfl
    · exact absurd (h.ends_mem e he).2 hb

/-- A new node is joined to an old one.  No other edge touches the new node, so this one closes no
cycle. -/
theorem link_new (h : g.Sound) {n m : Node α} (hn : (Graph.mk (g.nodes ++ [n]) g.edges).Sound)
    (hnew : n.id ∉ g.nodes.map Node.id) (hm : m ∈ g.nodes) {e : Edge}
    (hid : e.id ∉ g.edges.map Edge.id)
    (hends : e.source = n.id ∧ e.target = m.id ∧ n.kind.canFeed m.kind = true ∨
      e.source = m.id ∧ e.target = n.id ∧ m.kind.canFeed n.kind = true) :
    (Graph.mk (g.nodes ++ [n]) (g.edges ++ [e])).Sound := by
  have hn' : n ∈ g.nodes ++ [n] := List.mem_append_right _ (List.mem_singleton_self n)
  have hm' : m ∈ g.nodes ++ [n] := List.mem_append_left _ hm
  have hne : n.id ≠ m.id := fun he => hnew (he ▸ List.mem_map_of_mem hm)
  have hout : ∀ {b}, Relation.ReflTransGen (Feeds g.edges) n.id b → n.id = b := fun hp =>
    h.eq_of_path_of_new hp (Or.inl hnew)
  have hin : ∀ {a}, Relation.ReflTransGen (Feeds g.edges) a n.id → a = n.id := fun hp =>
    h.eq_of_path_of_new hp (Or.inr hnew)
  rcases hends with ⟨hs, ht, hfeed⟩ | ⟨hs, ht, hfeed⟩
  · refine hn.add_edge hid hn' hs.symm hm' ht.symm ?_ ?_ hfeed ?_ <;> rw [hs, ht]
    · exact hne
    · exact fun hf => hne (hout (.single hf))
    · exact fun hp => hne (hin hp).symm
  · refine hn.add_edge hid hm' hs.symm hn' ht.symm ?_ ?_ hfeed ?_ <;> rw [hs, ht]
    · exact hne.symm
    · exact fun hf => hne (hin (.single hf)).symm
    · exact fun hp => hne (hout hp)

theorem remove_edges (h : g.Sound) {edges : List Edge} (hsub : edges.Sublist g.edges) :
    (Graph.mk g.nodes edges).Sound where
  one_output := h.one_output
  nodup_ids := h.nodup_ids
  nodup_edge_ids := h.nodup_edge_ids.sublist (hsub.map Edge.id)
  ends_mem := fun e he => h.ends_mem e (hsub.subset he)
  no_loop := fun e he => h.no_loop e (hsub.subset he)
  nodup_ends := h.nodup_ends.sublist (hsub.map _)
  can_feed := fun e he => h.can_feed e (hsub.subset he)
  acyclic := h.acyclic.mono hsub.subset
  parent_group := h.parent_group
  fits := h.fits

/-- Nodes are removed, but no output, no end of an edge and no parent of a node that stays. -/
theorem remove_nodes (h : g.Sound) (stays : Node α → Bool)
    (hout : ∀ n ∈ g.nodes, n.isOutput = true → stays n = true)
    (hends : ∀ e ∈ g.edges, ∀ n ∈ g.nodes, n.id = e.source ∨ n.id = e.target → stays n = true)
    (hparent : ∀ n ∈ g.nodes, stays n = true → ∀ m ∈ g.nodes, n.parent = some m.id →
      stays m = true) :
    (Graph.mk (g.nodes.filter stays) g.edges).Sound := by
  have hmem : ∀ e ∈ g.edges, ∀ id ∈ g.nodes.map Node.id, id = e.source ∨ id = e.target →
      id ∈ (g.nodes.filter stays).map Node.id := by
    intro e he id hid hend
    obtain ⟨n, hn, rfl⟩ := List.mem_map.mp hid
    exact List.mem_map_of_mem (List.mem_filter.mpr ⟨hn, hends e he n hn hend⟩)
  refine ⟨?_, ?_, h.nodup_edge_ids, ?_, h.no_loop, h.nodup_ends, ?_, h.acyclic, ?_, ?_⟩
  · rw [List.countP_filter, ← h.one_output]
    refine List.countP_congr fun n hn => ?_
    rw [Bool.and_eq_true]
    exact ⟨fun hn' => hn'.1, fun ho => ⟨ho, hout n hn ho⟩⟩
  · exact h.nodup_ids.sublist (List.filter_sublist.map Node.id)
  · intro e he
    obtain ⟨hs, ht⟩ := h.ends_mem e he
    exact ⟨hmem e he _ hs (Or.inl rfl), hmem e he _ ht (Or.inr rfl)⟩
  · intro e he m hm n hn
    exact h.can_feed e he m (List.mem_filter.mp hm).1 n (List.mem_filter.mp hn).1
  · intro n hn p hp
    obtain ⟨hn, hstays⟩ := List.mem_filter.mp hn
    obtain ⟨m, hm, rfl, hk⟩ := h.parent_group n hn p hp
    exact ⟨m, List.mem_filter.mpr ⟨hm, hparent n hn hstays m hm hp⟩, rfl, hk⟩
  · exact fun n hn => h.fits n (List.mem_filter.mp hn).1

end Sound
end Graph
end PromptCanvas
