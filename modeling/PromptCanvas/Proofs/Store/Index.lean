import PromptCanvas.Proofs.Store.Changes

/-!
# The links never drift

The store keeps the links of its edges and changes them edge by edge.  In every state that it can
come to they are the links that would be computed anew, so that asking them is asking the edges: an
edge is added exactly where the graph allows it.
-/

namespace PromptCanvas

/-- An edge from one id to another may be drawn in a graph. -/
structure Graph.Allows {α : Type} (g : Graph α) (source target : String) : Prop where
  source_mem : source ∈ g.nodes.map Node.id
  target_mem : target ∈ g.nodes.map Node.id
  ne : source ≠ target
  not_feeds : ¬ Feeds g.edges source target
  /-- The kinds that belong to the two ids may be joined. -/
  can_feed : ∀ k l, g.kindOf source = some k → g.kindOf target = some l → k.canFeed l = true
  not_path : ¬ Relation.TransGen (Feeds g.edges) target source

namespace Graph

variable {α : Type}

/-- The judge of edges, asked with the links of a graph, tells what the graph allows. -/
theorem rejection?_eq_none_iff_allows {g : Graph α} {source target : String} :
    rejection? g.kindOf (.ofEdges g.edges) source target = none ↔ g.Allows source target := by
  rw [rejection?_eq_none_iff, Links.mem_targets_ofEdges, Links.createsCycle_ofEdges_iff]
  constructor
  · rintro ⟨k, l, hk, hl, hne, hnew, hfeed, hpath⟩
    refine ⟨exists_kindOf_iff.mp ⟨k, hk⟩, exists_kindOf_iff.mp ⟨l, hl⟩, hne, hnew, ?_, ?_⟩
    · intro k' l' hk' hl'
      rw [hk, Option.some.injEq] at hk'
      rw [hl, Option.some.injEq] at hl'
      rw [← hk', ← hl']
      exact hfeed
    · exact fun h => hpath h.to_reflTransGen
  · intro h
    obtain ⟨k, hk⟩ := exists_kindOf_iff.mpr h.source_mem
    obtain ⟨l, hl⟩ := exists_kindOf_iff.mpr h.target_mem
    refine ⟨k, l, hk, hl, h.ne, h.not_feeds, h.can_feed k l hk hl, fun hpath => ?_⟩
    rcases Relation.reflTransGen_iff_eq_or_transGen.mp hpath with heq | hpath
    · exact h.ne heq
    · exact h.not_path hpath

end Graph

namespace Store

variable {α : Type} [Scalar α]

/-- The states that a store can come to.  It starts from one output or from a graph as it is; then
operations are made, documents are loaded, and listeners come and go, in any order. -/
inductive Reachable : Store α → Prop
  | start (ids : IdSource) (metrics : Metrics α) : Reachable (startWith ids metrics)
  | given (metrics : Metrics α) (g : Graph α) : Reachable (ofGraph metrics g)
  | apply {s : Store α} (h : Reachable s) (op : Operation α) : Reachable (s.apply op).1
  | subscribe {s : Store α} (h : Reachable s) (l : Listener) : Reachable (s.subscribe l).1
  | unsubscribe {s : Store α} (h : Reachable s) (u : Subscription) : Reachable (s.unsubscribe u)

theorem Reachable.run {s : Store α} (h : Reachable s) (ops : List (Operation α)) :
    Reachable (s.run ops) := by
  induction ops generalizing s with
  | nil => exact h
  | cons op rest ih => exact ih (h.apply op)

theorem Reachable.links_eq {s : Store α} (h : Reachable s) : s.links = .ofEdges s.graph.edges := by
  induction h with
  | start ids metrics => rfl
  | given metrics g => rfl
  | apply h op ih => exact (attempt_apply _ op).links_eq ih
  | subscribe h l ih => exact ih
  | unsubscribe h u ih => exact ih

/-- In every state of a store its links are those of its edges.  So an edge is added exactly where
the graph allows it, and otherwise nothing is done; and the question whether two nodes can be
connected has the answer that adding the edge would have. -/
theorem links_never_drift {s : Store α} (h : Reachable s) :
    s.links = .ofEdges s.graph.edges ∧
    ∀ source target,
      (s.graph.Allows source target →
        ∃ id, (s.addEdge source target).2 = some id ∧
          (s.addEdge source target).1.graph =
            ⟨s.graph.nodes, s.graph.edges ++ [⟨id, source, target⟩]⟩) ∧
      (¬ s.graph.Allows source target → s.addEdge source target = (s, none)) ∧
      (s.canConnect source target = true ↔ s.graph.Allows source target) := by
  refine ⟨h.links_eq, fun source target => ?_⟩
  have hnone : s.refusal? source target = none ↔ s.graph.Allows source target := by
    rw [refusal?, h.links_eq]
    exact Graph.rejection?_eq_none_iff_allows
  rw [canConnect, Option.isNone_iff_eq_none, hnone]
  unfold addEdge
  refine ⟨fun hallows => ?_, fun hnot => ?_, Iff.rfl⟩
  · rw [hnone.mpr hallows]
    exact ⟨_, rfl, rfl⟩
  · cases hr : s.refusal? source target with
    | none => exact absurd (hnone.mp hr) hnot
    | some r => rfl

/-- An edge is drawn, and the opposite one would close a cycle. -/
def opposed : List (Operation Float) :=
  [.addNode .assembler ⟨0, 0⟩, .addNode .group ⟨0, 0⟩, .addEdge "assembler-2" "group-3"]

theorem links_never_drift_opposed :
    let s := (startWith .counting usualMetrics).run opposed
    let t := (s.apply (.removeEdge "edge-4")).1
    s.addEdge "group-3" "assembler-2" = (s, none) ∧ t.links = .ofEdges t.graph.edges ∧
      ∃ id, (t.addEdge "group-3" "assembler-2").2 = some id := by
  intro s t
  have hs : Reachable s := (Reachable.start _ _).run opposed
  obtain ⟨-, hbefore⟩ := links_never_drift hs
  obtain ⟨hlinks, hafter⟩ := links_never_drift (hs.apply (.removeEdge "edge-4"))
  obtain ⟨-, hrefused, hcan⟩ := hbefore "group-3" "assembler-2"
  obtain ⟨hadded, -, hcan'⟩ := hafter "group-3" "assembler-2"
  have hcycle : s.canConnect "group-3" "assembler-2" = false := by decide +kernel
  have hfree : t.canConnect "group-3" "assembler-2" = true := by decide +kernel
  refine ⟨hrefused fun hallows => ?_, hlinks, ?_⟩
  · rw [hcan.mpr hallows] at hcycle
    cases hcycle
  · obtain ⟨id, hid, -⟩ := hadded (hcan'.mp hfree)
    exact ⟨id, hid⟩

end Store
end PromptCanvas
