import PromptCanvas.Proofs.Store.Changes
import PromptCanvas.Proofs.Store.Invariant

/-!
# Deleting nodes

What is left of a graph without some of its nodes depends on which they are and on nothing else, and
leaving out some nodes and then others is leaving out all of them.  In a store that can be come to,
the nodes that go are those asked for, apart from the output, so it makes no difference in how many
batches and in which order they are asked for.  The output stays, and so no other is ever added.
-/

namespace PromptCanvas

/-! ## Graphs without some nodes -/

namespace Store

variable {α : Type} {n : Node α}

theorem orphanedBy_of_mem {gone : List String} {p : String} (hp : n.parent = some p)
    (hgone : p ∈ gone) : orphanedBy gone n = { n with parent := none } := by
  rw [orphanedBy, hp]
  exact if_pos (List.contains_iff_mem.mpr hgone)

theorem orphanedBy_of_not_mem {gone : List String} (h : ∀ p, n.parent = some p → p ∉ gone) :
    orphanedBy gone n = n := by
  cases hp : n.parent with
  | none => rw [orphanedBy, hp]
  | some p =>
    rw [orphanedBy, hp]
    exact if_neg fun hgone => h p hp (List.contains_iff_mem.mp hgone)

/-- Whether a node loses its parent depends on which ids are gone. -/
theorem orphanedBy_congr {gone all : List String} (h : ∀ id, id ∈ gone ↔ id ∈ all) (n : Node α) :
    orphanedBy gone n = orphanedBy all n := by
  by_cases hlost : ∃ p, n.parent = some p ∧ p ∈ gone
  · obtain ⟨p, hp, hgone⟩ := hlost
    rw [orphanedBy_of_mem hp hgone, orphanedBy_of_mem hp ((h p).mp hgone)]
  · have hkept : ∀ p, n.parent = some p → p ∉ gone := fun p hp hgone => hlost ⟨p, hp, hgone⟩
    rw [orphanedBy_of_not_mem hkept,
      orphanedBy_of_not_mem fun p hp hall => hkept p hp ((h p).mpr hall)]

theorem orphanedBy_orphanedBy (gone more : List String) (n : Node α) :
    orphanedBy more (orphanedBy gone n) = orphanedBy (gone ++ more) n := by
  by_cases hlost : ∃ p, n.parent = some p ∧ p ∈ gone
  · obtain ⟨p, hp, hgone⟩ := hlost
    rw [orphanedBy_of_mem hp hgone, orphanedBy_of_mem hp (List.mem_append_left more hgone)]
    exact orphanedBy_of_not_mem nofun
  · have hkept : ∀ p, n.parent = some p → p ∉ gone := fun p hp hgone => hlost ⟨p, hp, hgone⟩
    rw [orphanedBy_of_not_mem hkept]
    by_cases hlater : ∃ p, n.parent = some p ∧ p ∈ more
    · obtain ⟨p, hp, hmore⟩ := hlater
      rw [orphanedBy_of_mem hp hmore, orphanedBy_of_mem hp (List.mem_append_right gone hmore)]
    · rw [orphanedBy_of_not_mem fun p hp hmore => hlater ⟨p, hp, hmore⟩,
        orphanedBy_of_not_mem fun p hp hall => ?_]
      rcases List.mem_append.mp hall with hgone | hmore
      · exact hkept p hp hgone
      · exact hlater ⟨p, hp, hmore⟩

theorem id_orphanedBy (gone : List String) (n : Node α) : (orphanedBy gone n).id = n.id := by
  obtain ⟨q, hq, -⟩ := exists_orphanedBy gone n
  rw [hq]

theorem isOutput_orphanedBy (gone : List String) (n : Node α) :
    (orphanedBy gone n).isOutput = n.isOutput := by
  obtain ⟨q, hq, -⟩ := exists_orphanedBy gone n
  rw [hq]
  rfl

end Store

namespace Graph

open Store

variable {α : Type}

/-- The graph without the nodes of some ids, without the edges that touch them, and without the
memberships in them. -/
def without (g : Graph α) (gone : List String) : Graph α where
  nodes := (g.nodes.filter fun n => !gone.contains n.id).map (orphanedBy gone)
  edges := g.edges.filter fun e => !gone.contains e.source && !gone.contains e.target

theorem mem_nodes_without {g : Graph α} {gone : List String} {m : Node α} :
    m ∈ (g.without gone).nodes ↔ ∃ n ∈ g.nodes, n.id ∉ gone ∧ orphanedBy gone n = m := by
  simp [without, and_assoc]

theorem without_congr (g : Graph α) {gone all : List String} (h : ∀ id, id ∈ gone ↔ id ∈ all) :
    g.without gone = g.without all := by
  have hcontains : gone.contains = all.contains := by
    funext id
    rw [Bool.eq_iff_iff, List.contains_iff_mem, List.contains_iff_mem, h]
  rw [without, without, hcontains, funext (orphanedBy_congr h)]

theorem without_nil (g : Graph α) : g.without [] = g := by
  have hsame : orphanedBy [] = (id : Node α → Node α) :=
    funext fun n => orphanedBy_of_not_mem fun _ _ => List.not_mem_nil
  simp [without, hsame]

/-- Without some nodes and then without others is without all of them. -/
theorem without_without (g : Graph α) (gone more : List String) :
    (g.without gone).without more = g.without (gone ++ more) := by
  have hkept : ∀ id, (!(gone ++ more).contains id) = (!gone.contains id && !more.contains id) := by
    intro id
    rw [← Bool.not_or, Bool.not_inj_iff, Bool.eq_iff_iff, Bool.or_eq_true, List.contains_iff_mem,
      List.contains_iff_mem, List.contains_iff_mem, List.mem_append]
  have hids : (fun n : Node α => !more.contains n.id) ∘ orphanedBy gone =
      fun n => !more.contains n.id :=
    funext fun n => by rw [Function.comp_apply, id_orphanedBy]
  have hparents : orphanedBy more ∘ orphanedBy gone =
      (orphanedBy (gone ++ more) : Node α → Node α) :=
    funext (orphanedBy_orphanedBy gone more)
  have hnodes : ((g.without gone).without more).nodes = (g.without (gone ++ more)).nodes := by
    simp only [without, List.filter_map, List.map_map, List.filter_filter, hids, hparents, hkept]
    refine congrArg (List.map _) (List.filter_congr fun n _ => ?_)
    exact Bool.and_comm _ _
  have hedges : ((g.without gone).without more).edges = (g.without (gone ++ more)).edges := by
    simp only [without, List.filter_filter, hkept]
    refine List.filter_congr fun e _ => ?_
    ac_rfl
  exact congrArg₂ Graph.mk hnodes hedges

end Graph

namespace Store

variable {α : Type} {s : Store α}

/-! ## What is deleted -/

theorem mem_deletable_iff {ids : List String} {id : String} : id ∈ s.deletable ids ↔
    id ∈ ids ∧ ∃ n ∈ s.graph.nodes, n.id = id ∧ n.isOutput = false := by
  rw [mem_deletable]
  constructor
  · rintro ⟨n, hn, hids, hout, rfl⟩
    exact ⟨hids, n, hn, rfl, hout⟩
  · rintro ⟨hids, n, hn, rfl, hout⟩
    exact ⟨n, hn, hids, hout, rfl⟩

/-- Of a sound graph the nodes that lose their parent are the children of the groups that go. -/
theorem orphanedBy_eq_ite (h : s.Sound) (gone : List String) {n : Node α} (hn : n ∈ s.graph.nodes) :
    orphanedBy gone n =
      if ∃ m ∈ s.graph.nodes, m.isGroup = true ∧ m.id ∈ gone ∧ n.parent = some m.id then
        { n with parent := none }
      else n := by
  split
  · rename_i hlost
    obtain ⟨m, -, -, hgone, hp⟩ := hlost
    exact orphanedBy_of_mem hp hgone
  · rename_i hkept
    refine orphanedBy_of_not_mem fun p hp hgone => hkept ?_
    obtain ⟨m, hm, rfl, hgroup⟩ := h.graph.parent_group n hn p hp
    exact ⟨m, hm, beq_iff_eq.mpr hgroup, hgone, hp⟩

/-- What is asked of deleting nodes from a store: the store after it, and the ids of those that were
deleted. -/
structure Deletion (s : Store α) (ids : List String) (r : Store α × List String) : Prop where
  /-- Of the nodes that were asked for, all but the output were deleted. -/
  mem_iff : ∀ id, id ∈ r.2 ↔ id ∈ ids ∧ ∃ n ∈ s.graph.nodes, n.id = id ∧ n.isOutput = false
  /-- The others stay in their order, and they keep all but their parents.  They lose those exactly
  where a group was deleted. -/
  nodes_eq : r.1.graph.nodes = (s.graph.nodes.filter fun n => n.id ∉ r.2).map fun n =>
    if ∃ m ∈ s.graph.nodes, m.isGroup = true ∧ m.id ∈ r.2 ∧ n.parent = some m.id then
      { n with parent := none }
    else n
  edges_eq : r.1.graph.edges = s.graph.edges.filter fun e => e.source ∉ r.2 ∧ e.target ∉ r.2
  /-- No id was drawn, as it would be for a fresh output. -/
  ids_eq : r.1.ids = s.ids

variable [Scalar α]

theorem deleteNodes_snd (s : Store α) (ids : List String) :
    (s.deleteNodes ids).2 = s.deletable ids := by
  unfold deleteNodes
  dsimp only
  split
  · rename_i hnone
    exact (List.isEmpty_iff.mp hnone).symm
  · split <;> rfl

/-- In a sound store deleting takes nodes out of the graph and does nothing else to it. -/
theorem graph_deleteNodes (h : s.Sound) (ids : List String) :
    (s.deleteNodes ids).1.graph = s.graph.without (s.deletable ids) := by
  rw [deleteNodes_of_sound h]
  split
  · rename_i hnone
    rw [List.isEmpty_iff.mp hnone, Graph.without_nil]
  · rfl

/-- No output is added, as that would draw its id. -/
theorem ids_deleteNodes (h : s.Sound) (ids : List String) : (s.deleteNodes ids).1.ids = s.ids := by
  rw [deleteNodes_of_sound h]
  split <;> rfl

/-- After some nodes were deleted, those asked for next are deleted as far as they are left. -/
theorem mem_deletable_deleteNodes (h : s.Sound) {ids more : List String} {id : String} :
    id ∈ (s.deleteNodes ids).1.deletable more ↔
      id ∈ s.deletable more ∧ id ∉ s.deletable ids := by
  rw [mem_deletable_iff, mem_deletable_iff, graph_deleteNodes h]
  constructor
  · rintro ⟨hmore, m, hm, rfl, hout⟩
    obtain ⟨n, hn, hkept, rfl⟩ := Graph.mem_nodes_without.mp hm
    rw [isOutput_orphanedBy] at hout
    rw [id_orphanedBy] at hmore ⊢
    exact ⟨⟨hmore, n, hn, rfl, hout⟩, hkept⟩
  · rintro ⟨⟨hmore, n, hn, rfl, hout⟩, hkept⟩
    refine ⟨hmore, _, Graph.mem_nodes_without.mpr ⟨n, hn, hkept, rfl⟩, id_orphanedBy _ n, ?_⟩
    rw [isOutput_orphanedBy, hout]

/-- Two batches delete what one batch of all deletes. -/
theorem mem_deletable_union (h : s.Sound) {first second all : List String}
    (hall : ∀ id, id ∈ all ↔ id ∈ first ∨ id ∈ second) (id : String) :
    id ∈ s.deletable first ++ (s.deleteNodes first).1.deletable second ↔ id ∈ s.deletable all := by
  have hunion : id ∈ s.deletable all ↔ id ∈ s.deletable first ∨ id ∈ s.deletable second := by
    rw [mem_deletable_iff, mem_deletable_iff, mem_deletable_iff, hall, or_and_right]
  rw [List.mem_append, mem_deletable_deleteNodes h, hunion]
  by_cases hfirst : id ∈ s.deletable first
  · simp only [hfirst, true_or]
  · simp only [hfirst, false_or, not_false_eq_true, and_true]

theorem graph_deleteNodes_deleteNodes (h : s.Sound) {first second all : List String}
    (hall : ∀ id, id ∈ all ↔ id ∈ first ∨ id ∈ second) :
    ((s.deleteNodes first).1.deleteNodes second).1.graph = (s.deleteNodes all).1.graph := by
  rw [graph_deleteNodes (h.deleteNodes first), graph_deleteNodes h, graph_deleteNodes h,
    Graph.without_without, Graph.without_congr s.graph (mem_deletable_union h hall)]

theorem deletion_deleteNodes (h : s.Sound) (ids : List String) :
    s.Deletion ids (s.deleteNodes ids) where
  mem_iff id := by rw [deleteNodes_snd, mem_deletable_iff]
  nodes_eq := by
    have hkept : (s.graph.nodes.filter fun n => !(s.deletable ids).contains n.id) =
        s.graph.nodes.filter fun n => n.id ∉ s.deletable ids :=
      List.filter_congr fun n _ => by rw [List.contains_eq_mem, decide_not]
    rw [graph_deleteNodes h, deleteNodes_snd, Graph.without, hkept]
    exact List.map_congr_left fun n hn => orphanedBy_eq_ite h _ (List.mem_filter.mp hn).1
  edges_eq := by
    rw [graph_deleteNodes h, deleteNodes_snd]
    refine List.filter_congr fun e _ => ?_
    rw [List.contains_eq_mem, List.contains_eq_mem, Bool.decide_and, decide_not, decide_not]
  ids_eq := ids_deleteNodes h ids

/-- From a store that can be come to, nodes are deleted as they should be.  Two batches, in whatever
order, do together what one batch of all does, and no output is added on the way. -/
theorem deleteNodes_exact {s : Store α} (h : s.Attained) :
    (∀ ids, s.Deletion ids (s.deleteNodes ids)) ∧
      ∀ first second all, (∀ id, id ∈ all ↔ id ∈ first ∨ id ∈ second) →
        ((s.deleteNodes first).1.deleteNodes second).1.graph = (s.deleteNodes all).1.graph ∧
        ((s.deleteNodes second).1.deleteNodes first).1.graph = (s.deleteNodes all).1.graph ∧
        (∀ id, id ∈ (s.deleteNodes all).2 ↔ id ∈ (s.deleteNodes first).2 ∨
          id ∈ ((s.deleteNodes first).1.deleteNodes second).2) ∧
        ((s.deleteNodes first).1.deleteNodes second).1.ids = s.ids := by
  have hs := h.sound
  refine ⟨deletion_deleteNodes hs, fun first second all hall => ?_⟩
  have hswap : ∀ id, id ∈ all ↔ id ∈ second ∨ id ∈ first := fun id => (hall id).trans or_comm
  refine ⟨graph_deleteNodes_deleteNodes hs hall, graph_deleteNodes_deleteNodes hs hswap,
    fun id => ?_, ?_⟩
  · rw [deleteNodes_snd, deleteNodes_snd, deleteNodes_snd, ← mem_deletable_union hs hall,
      List.mem_append]
  · rw [ids_deleteNodes (hs.deleteNodes first), ids_deleteNodes hs]

/-- A group with a lens in it, and the lens feeds a camera. -/
def framed : Store Float := (startWith .counting usualMetrics).run [
  .addNode .group ⟨0, 0⟩, .addNode .lens ⟨0, 0⟩, .setParent "lens-3" (some "group-2"),
  .addConnected "output-1" .cameraRoot, .addEdge "lens-3" "camera_root-4"]

theorem deleteNodes_exact_framed :
    let first := ["group-2", "gone"]
    let second := ["output-1", "camera_root-4"]
    let all := ["output-1", "gone", "camera_root-4", "group-2"]
    framed.Attained ∧ (∀ id, id ∈ all ↔ id ∈ first ∨ id ∈ second) ∧
      ((framed.deleteNodes first).1.deleteNodes second).1.graph = (framed.deleteNodes all).1.graph ∧
      framed.Deletion first (framed.deleteNodes first) ∧
      (framed.deleteNodes first).1.graph.nodes.map Node.parent = [none, none, none] := by
  intro first second all
  have hattained : framed.Attained := (attained_startWith _ _).run (by decide +kernel)
  have hall : ∀ id, id ∈ all ↔ id ∈ first ∨ id ∈ second := by
    intro id
    simp only [all, first, second, List.mem_cons, List.not_mem_nil, or_false]
    tauto
  obtain ⟨hdeletion, hbatches⟩ := deleteNodes_exact hattained
  exact ⟨hattained, hall, (hbatches first second all hall).1, hdeletion first, by decide +kernel⟩

end Store
end PromptCanvas
