import PromptCanvas.Proofs.Store.Changes

/-!
# Loading loses nothing silently

Loading goes through the nodes of a document and then through its edges.  What it keeps stands in
the order of the entries, and for each entry that it leaves out it gives one warning.  Nodes lose at
most a parent that is no group.

An edge is judged beside the edges that were kept before it, but the reason against it stays true
when more edges are kept.  So the graph that is loaded could take none of the edges that were left
out.
-/

namespace PromptCanvas

/-! ## Rows with something left out -/

/-- A row is gone through in order.  Each entry is kept as what it is read as, or it is left out with
one warning. -/
inductive Sifted {ι β : Type} (read : ι → Except EntryError β) (leftOut : ι → LoadWarning → Prop) :
    List ι → List β → List LoadWarning → Prop
  | nil : Sifted read leftOut [] [] []
  | keep {i : ι} {b : β} {is : List ι} {bs : List β} {ws : List LoadWarning} (hb : read i = .ok b)
      (h : Sifted read leftOut is bs ws) : Sifted read leftOut (i :: is) (b :: bs) ws
  | leave {i : ι} {w : LoadWarning} {is : List ι} {bs : List β} {ws : List LoadWarning}
      (hw : leftOut i w) (h : Sifted read leftOut is bs ws) :
      Sifted read leftOut (i :: is) bs (w :: ws)

/-- What is kept is a subsequence of what can be read. -/
theorem Sifted.sublist {ι β : Type} {read : ι → Except EntryError β} {leftOut : ι → LoadWarning → Prop}
    {is : List ι} {bs : List β} {ws : List LoadWarning} (h : Sifted read leftOut is bs ws) :
    bs.Sublist ((is.map read).filterMap Except.toOption) := by
  induction h with
  | nil => exact List.Sublist.refl []
  | keep hb h ih =>
    rw [List.map_cons, hb]
    exact ih.cons_cons _
  | @leave i w is bs ws hw h ih =>
    rw [List.map_cons]
    cases read i with
    | error e => exact ih
    | ok b => exact ih.cons b

/-- The warning says that an entry was left out. -/
def LoadWarning.isDrop : LoadWarning → Bool
  | .unreadableNode | .duplicateNode _ | .extraOutput _ | .malformedEdge | .droppedEdge _ _ => true
  | .notDocument _ | .notList _ _ | .noOutput | .danglingParent _ _ | .cycle => false

theorem Sifted.filter_isDrop {ι β : Type} {read : ι → Except EntryError β}
    {leftOut : ι → LoadWarning → Prop} {is : List ι} {bs : List β} {ws : List LoadWarning}
    (h : Sifted read leftOut is bs ws) (hdrop : ∀ i w, leftOut i w → w.isDrop = true) :
    ws.filter LoadWarning.isDrop = ws := by
  induction h with
  | nil => rfl
  | keep _ _ ih => exact ih
  | leave hw _ ih => rw [List.filter_cons_of_pos (hdrop _ _ hw), ih]

/-! ## Reasons against edges -/

namespace Graph

variable {α : Type}

/-- A reason for which a graph cannot take an edge. -/
def Against (g : Graph α) (e : Edge) : Rejection → Prop
  | .unknownEndpoint => e.source ∉ g.nodes.map Node.id ∨ e.target ∉ g.nodes.map Node.id
  | .selfLoop => e.source = e.target
  | .duplicateEdge => Feeds g.edges e.source e.target
  | .cannotFeed k l => k.canFeed l = false ∧ (∃ m ∈ g.nodes, m.id = e.source ∧ m.kind = k) ∧
      ∃ n ∈ g.nodes, n.id = e.target ∧ n.kind = l
  | .wouldCycle => Relation.ReflTransGen (Feeds g.edges) e.target e.source
  | .duplicateId => e.id ∈ g.edges.map Edge.id

theorem Against.not_sound {g : Graph α} {e : Edge} {r : Rejection} (h : g.Against e r) :
    ¬ (Graph.mk g.nodes (g.edges ++ [e])).Sound := by
  intro hs
  have he : e ∈ g.edges ++ [e] := List.mem_append_right _ (List.mem_singleton_self e)
  cases r with
  | unknownEndpoint =>
    obtain ⟨hsource, htarget⟩ := hs.ends_mem e he
    exact h.elim (fun h => h hsource) fun h => h htarget
  | selfLoop => exact hs.no_loop e he h
  | duplicateEdge =>
    obtain ⟨d, hd, hds, hdt⟩ := h
    exact ne_of_nodup_map_append hs.nodup_ends hd (Prod.ext hds hdt)
  | cannotFeed k l =>
    obtain ⟨hfeed, ⟨m, hm, hms, rfl⟩, n, hn, hnt, rfl⟩ := h
    have hcan := hs.can_feed e he m hm n hn hms hnt
    rw [hcan] at hfeed
    cases hfeed
  | wouldCycle => exact (acyclic_append_iff.mp hs.acyclic).2 h
  | duplicateId =>
    obtain ⟨d, hd, hid⟩ := List.mem_map.mp h
    exact ne_of_nodup_map_append hs.nodup_edge_ids hd hid

theorem Against.mono {nodes : List (Node α)} {edges more : List Edge} {e : Edge} {r : Rejection}
    (hsub : edges ⊆ more) (h : (Graph.mk nodes edges).Against e r) :
    (Graph.mk nodes more).Against e r := by
  cases r with
  | unknownEndpoint => exact h
  | selfLoop => exact h
  | duplicateEdge => exact Feeds.mono hsub _ _ h
  | cannotFeed k l => exact h
  | wouldCycle => exact Relation.ReflTransGen.mono (Feeds.mono hsub) _ _ h
  | duplicateId => exact List.map_subset Edge.id hsub h

theorem against_of_rejection? {g : Graph α} {e : Edge} {r : Rejection}
    (h : rejection? g.kindOf (.ofEdges g.edges) e.source e.target = some r) : g.Against e r := by
  unfold rejection? at h
  split at h
  · rename_i k l hk hl
    split at h
    · rename_i hloop
      cases h
      exact eq_of_beq hloop
    · split at h
      · rename_i hnew
        cases h
        exact Links.mem_targets_ofEdges.mp (List.contains_iff_mem.mp hnew)
      · split at h
        · rename_i hfeed
          cases h
          exact ⟨by simpa using hfeed, exists_of_kindOf hk, exists_of_kindOf hl⟩
        · split at h
          · rename_i hcycle
            cases h
            exact Links.createsCycle_ofEdges_iff.mp hcycle
          · cases h
  · rename_i hnone
    cases h
    by_contra hboth
    obtain ⟨hs, ht⟩ := not_or.mp hboth
    obtain ⟨k, hk⟩ := exists_kindOf_iff.mpr (not_not.mp hs)
    obtain ⟨l, hl⟩ := exists_kindOf_iff.mpr (not_not.mp ht)
    exact hnone k l hk hl

end Graph

namespace Document

variable {α : Type}

/-! ## Nodes -/

/-- A node and what is loaded of it: the same node, or without a parent that is no group. -/
def Mended (kindOf : String → Option Kind) (n n' : Node α) : Prop :=
  n' = n ∨ n' = { n with parent := none } ∧ ∃ p, n.parent = some p ∧ kindOf p ≠ some .group

theorem mended_repairParent (kindOf : String → Option Kind) (n : Node α) :
    Mended kindOf n (repairParent kindOf n).1 := by
  unfold repairParent
  split
  · exact Or.inl rfl
  · rename_i p hp
    split
    · exact Or.inl rfl
    · rename_i hk
      exact Or.inr ⟨rfl, p, hp, fun hgroup => hk (beq_iff_eq.mpr hgroup)⟩

theorem mended_repaired (nodes : List (Node α)) (edges : List Edge) :
    List.Forall₂ (Mended (Graph.mk (repaired nodes) edges).kindOf) nodes (repaired nodes) := by
  rw [kindOf_repaired, repaired_eq, List.forall₂_map_right_iff, List.forall₂_same]
  exact fun n _ => mended_repairParent _ n

variable [Scalar α]

theorem NodeLeftOut.mono {nodes more : List (Node α)} {j : Json} {w : LoadWarning}
    (hsub : nodes ⊆ more) (h : NodeLeftOut nodes j w) : NodeLeftOut more j w := by
  cases h with
  | unreadable he => exact .unreadable he
  | duplicate hn hid => exact .duplicate hn (List.map_subset Node.id hsub hid)
  | extraOutput hn hout hany =>
    obtain ⟨m, hm, ho⟩ := List.any_eq_true.mp hany
    exact .extraOutput hn hout (List.any_eq_true.mpr ⟨m, hsub hm, ho⟩)

theorem exists_sifted_of_keepNodes {kept nodes : List (Node α)} {items : List Json}
    {ws : List LoadWarning} (h : keepNodes kept items = .ok (nodes, ws)) :
    ∃ more, nodes = kept ++ more ∧ Sifted Node.ofEntry (NodeLeftOut nodes) items more ws := by
  induction items generalizing kept ws with
  | nil =>
    rw [keepNodes] at h
    cases h
    exact ⟨[], (List.append_nil _).symm, .nil⟩
  | cons j rest ih =>
    rcases keepNodes_cons_eq_ok h with ⟨w, ws', hleft, rfl, hrest⟩ | ⟨n, hn, -, -, hrest⟩
    · obtain ⟨more, hmore, hsifted⟩ := ih hrest
      have hsub : kept ⊆ nodes := by rw [hmore]; exact List.subset_append_left kept more
      exact ⟨more, hmore, .leave (hleft.mono hsub) hsifted⟩
    · obtain ⟨more, hmore, hsifted⟩ := ih hrest
      exact ⟨n :: more, hmore.trans (List.append_assoc kept [n] more), .keep hn hsifted⟩

/-! ## Edges -/

/-- An entry of an edge that a graph cannot take, with the warning that says so. -/
inductive EdgeLeftOut (g : Graph α) (j : Json) : LoadWarning → Prop
  | malformed {err : EntryError} (he : Edge.ofEntry j = .error err) : EdgeLeftOut g j .malformedEdge
  | against {e : Edge} {r : Rejection} (he : Edge.ofEntry j = .ok e) (hr : g.Against e r) :
      EdgeLeftOut g j (.droppedEdge e.id r)

omit [Scalar α] in
/-- The reasons that were given against edges hold of all the edges that are kept. -/
theorem exists_sifted_keepEdges {nodes : List (Node α)} {kindOf : String → Option Kind}
    (hkind : ∀ edges, (Graph.mk nodes edges).kindOf = kindOf) (kept edges : List Edge) :
    ∃ more, (keepEdges kindOf kept (.ofEdges kept) edges).1.1 = kept ++ more ∧
      Sifted .ok (fun e w => ∃ r, w = .droppedEdge e.id r ∧ (Graph.mk nodes (kept ++ more)).Against e r)
        edges more (keepEdges kindOf kept (.ofEdges kept) edges).2 := by
  induction edges generalizing kept with
  | nil => exact ⟨[], (List.append_nil kept).symm, .nil⟩
  | cons e rest ih =>
    rcases keepEdges_cons kindOf kept (.ofEdges kept) e rest with ⟨r, hr, hout⟩ | ⟨-, -, hin⟩
    · rw [hout]
      obtain ⟨more, hmore, hsifted⟩ := ih kept
      have hnow : (Graph.mk nodes kept).Against e r := by
        rcases hr with hr | ⟨rfl, hid⟩
        · exact Graph.against_of_rejection? (hkind kept ▸ hr)
        · exact hid
      exact ⟨more, hmore, .leave ⟨r, rfl, hnow.mono (List.subset_append_left kept more)⟩ hsifted⟩
    · rw [hin, ← Links.ofEdges_append]
      obtain ⟨more, hmore, hsifted⟩ := ih (kept ++ [e])
      rw [List.append_assoc] at hmore hsifted
      exact ⟨e :: more, hmore, .keep rfl hsifted⟩

omit [Scalar α] in
/-- Edges that cannot be read are left out of the row before it is judged. -/
theorem exists_sifted_entries {g : Graph α} {items : List Json} {edges : List Edge}
    {ws : List LoadWarning}
    (h : Sifted .ok (fun e w => ∃ r, w = .droppedEdge e.id r ∧ g.Against e r) (edgesIn items).1
      edges ws) :
    ∃ drops, Sifted Edge.ofEntry (EdgeLeftOut g) items edges drops ∧
      ((edgesIn items).2 ++ ws).Perm drops := by
  induction items generalizing edges ws with
  | nil =>
    cases h
    exact ⟨[], .nil, .nil⟩
  | cons j rest ih =>
    cases hj : Edge.ofEntry j with
    | error err =>
      rw [edgesIn_cons_of_error rest hj] at h ⊢
      obtain ⟨drops, hsifted, hperm⟩ := ih h
      exact ⟨_, .leave (.malformed hj) hsifted, hperm.cons _⟩
    | ok e =>
      rw [edgesIn_cons_of_ok rest hj] at h ⊢
      cases h with
      | keep hb h =>
        cases hb
        obtain ⟨drops, hsifted, hperm⟩ := ih h
        exact ⟨drops, .keep hj hsifted, hperm⟩
      | leave hw h =>
        obtain ⟨r, rfl, hr⟩ := hw
        obtain ⟨drops, hsifted, hperm⟩ := ih h
        exact ⟨_, .leave (.against hj hr) hsifted, List.perm_middle.trans (hperm.cons _)⟩

/-! ## Warnings -/

omit [Scalar α] in
theorem filter_isDrop_members (document : Json) :
    (members document).2.filter LoadWarning.isDrop = [] := by
  cases document <;> rfl

omit [Scalar α] in
theorem filter_isDrop_entries (fields : List (String × Json)) (key : String) :
    (entries fields key).2.filter LoadWarning.isDrop = [] := by
  unfold entries
  split
  · rfl
  · split <;> rfl

omit [Scalar α] in
theorem filter_isDrop_repairParent (kindOf : String → Option Kind) (nodes : List (Node α)) :
    ((nodes.map (repairParent kindOf)).flatMap Prod.snd).filter LoadWarning.isDrop = [] := by
  rw [List.filter_flatMap, List.flatMap_eq_nil_iff]
  intro r hr
  obtain ⟨n, -, rfl⟩ := List.mem_map.mp hr
  unfold repairParent
  split
  · rfl
  · split <;> rfl

/-- Of all that is said about a document, only what is said of its nodes and of its edges is about
entries that were left out. -/
theorem filter_isDrop_loadWarnings (s : Store α) (document : Json) (read : List (Node α))
    (ws : List LoadWarning) :
    (s.loadWarnings document read ws).filter LoadWarning.isDrop =
      (ws ++ ((edgesIn (entries (members document).1 "edges").1).2 ++
        (keepEdges (Graph.mk (completed s.ids read) []).kindOf [] []
          (edgesIn (entries (members document).1 "edges").1).1).2)).filter LoadWarning.isDrop := by
  have houtput : (if read.any Node.isOutput then [] else [LoadWarning.noOutput]).filter
      LoadWarning.isDrop = [] := by
    split <;> rfl
  have hcycle : ∀ edges, (if hasCycle edges then [LoadWarning.cycle] else []).filter
      LoadWarning.isDrop = [] := by
    intro edges
    split <;> rfl
  simp only [Store.loadWarnings, List.filter_append, filter_isDrop_members, filter_isDrop_entries,
    filter_isDrop_repairParent, houtput, hcycle, List.nil_append, List.append_assoc]

theorem NodeLeftOut.isDrop {nodes : List (Node α)} {j : Json} {w : LoadWarning}
    (h : NodeLeftOut nodes j w) : w.isDrop = true := by
  cases h <;> rfl

omit [Scalar α] in
theorem EdgeLeftOut.isDrop {g : Graph α} {j : Json} {w : LoadWarning} (h : EdgeLeftOut g j w) :
    w.isDrop = true := by
  cases h <;> rfl

end Document

namespace Store

open Document

variable {α : Type} [Scalar α]

/-- A document that can be loaded is loaded with the fewest repairs, and none of its entries is lost
silently.  The nodes that are kept are readable entries in their order, each at most without a
parent that is no group, and the edges are too.  Each entry that is not kept has one warning, and
there are no more such warnings than that.  No edge that was left out could be added to the graph
that was loaded: the reason that was given against it holds there, and so the graph would break a
promise. -/
theorem load_repairs {s s' : Store α} {document : Json} {ws : List LoadWarning}
    (h : s.load document = (s', .ok ws)) :
    ∃ (kept : List (Node α)) (nodeDrops edgeDrops : List LoadWarning),
      Sifted Node.ofEntry (NodeLeftOut kept) (entries (members document).1 "nodes").1 kept
        nodeDrops ∧
      kept.Sublist (((entries (members document).1 "nodes").1.map Node.ofEntry).filterMap
        Except.toOption) ∧
      List.Forall₂ (Mended s'.graph.kindOf) (completed s.ids kept) s'.graph.nodes ∧
      Sifted Edge.ofEntry (EdgeLeftOut s'.graph) (entries (members document).1 "edges").1
        s'.graph.edges edgeDrops ∧
      s'.graph.edges.Sublist (((entries (members document).1 "edges").1.map Edge.ofEntry).filterMap
        Except.toOption) ∧
      (ws.filter LoadWarning.isDrop).Perm (nodeDrops ++ edgeDrops) ∧
      ∀ e r, s'.graph.Against e r →
        ¬ (Graph.mk s'.graph.nodes (s'.graph.edges ++ [e])).Sound := by
  obtain ⟨-, kept, nodeDrops, hkept, rfl, rfl⟩ := load_eq_ok_iff.mp h
  obtain ⟨_, rfl, hnodes⟩ := exists_sifted_of_keepNodes hkept
  obtain ⟨edges, hkeep, hjudged⟩ := exists_sifted_keepEdges
    (kindOf_repaired (completed s.ids kept)) [] (edgesIn (entries (members document).1 "edges").1).1
  obtain ⟨edgeDrops, hedges, hperm⟩ := exists_sifted_entries hjudged
  have hgraph : (s.loaded document kept).graph = ⟨repaired (completed s.ids kept), edges⟩ :=
    congrArg (Graph.mk _) hkeep
  refine ⟨kept, nodeDrops, edgeDrops, hnodes, hnodes.sublist, ?_⟩
  rw [hgraph]
  refine ⟨mended_repaired _ _, hedges, hedges.sublist, ?_, fun e r hr => hr.not_sound⟩
  rw [filter_isDrop_loadWarnings, List.filter_append,
    hnodes.filter_isDrop fun _ _ => NodeLeftOut.isDrop]
  refine List.Perm.append_left nodeDrops ?_
  rw [← hedges.filter_isDrop fun _ _ => EdgeLeftOut.isDrop]
  exact hperm.filter LoadWarning.isDrop

/-- A document with an entry to leave out for each reason. -/
def cluttered : Json := .obj [
  ("nodes", .arr [
    .obj [("id", .str "out"), ("kind", .str "output"), ("parent_id", .str "b")],
    .null,
    .obj [("id", .str "a"), ("kind", .str "assembler")],
    .obj [("id", .str "a"), ("kind", .str "group")],
    .obj [("id", .str "out2"), ("kind", .str "output")],
    .obj [("id", .str "b"), ("kind", .str "assembler")],
    .obj [("id", .str "c"), ("kind", .str "group")]]),
  ("edges", .arr [
    .obj [("id", .int 1), ("source", .str "a"), ("target", .str "b")],
    .obj [("id", .int 2), ("source", .str "b"), ("target", .str "a")],
    .obj [("id", .int 3), ("source", .str "a"), ("target", .str "b")],
    .obj [("id", .int 4), ("source", .str "a"), ("target", .str "a")],
    .obj [("id", .int 5), ("source", .str "out2"), ("target", .str "out")],
    .obj [("id", .int 6)],
    .obj [("id", .int 1), ("source", .str "b"), ("target", .str "c")],
    .obj [("id", .int 7), ("source", .str "b"), ("target", .str "c")],
    .obj [("id", .int 8), ("source", .str "b"), ("target", .str "out")]])]

theorem load_repairs_cluttered :
    ∃ s' ws, (startWith .counting usualMetrics).load cluttered = (s', .ok ws) ∧
      s'.graph.edges.map Edge.id = ["1", "7"] ∧
      ∃ nodeDrops edgeDrops,
        (ws.filter LoadWarning.isDrop).Perm (nodeDrops ++ edgeDrops) ∧
        Sifted Edge.ofEntry (EdgeLeftOut s'.graph) (entries (members cluttered).1 "edges").1
          s'.graph.edges edgeDrops := by
  have hsome : ((startWith .counting usualMetrics).load cluttered).2.toOption.isSome = true := by
    decide +kernel
  have hids : ((startWith .counting usualMetrics).load cluttered).1.graph.edges.map Edge.id =
      ["1", "7"] := by
    decide +kernel
  obtain ⟨s', ws, hload⟩ := exists_load_eq_ok hsome
  rw [hload] at hids
  obtain ⟨kept, nodeDrops, edgeDrops, -, -, -, hedges, -, hperm, -⟩ := load_repairs hload
  exact ⟨s', ws, hload, hids, nodeDrops, edgeDrops, hperm, hedges⟩

end Store
end PromptCanvas
