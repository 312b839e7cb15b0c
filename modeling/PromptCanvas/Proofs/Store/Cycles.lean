import PromptCanvas.Proofs.Store.Repairs

/-!
# Cycles in documents

Whether the edges of a document have a cycle is said once, before they are added one by one.  The
two searches that decide this, in depth over all edges and in breadth for one edge, agree, and the
edges that are kept are some of those in the document.  So an edge is left out for a cycle only
where a cycle was reported.
-/

namespace PromptCanvas

open Relation

theorem Sifted.exists_of_mem_warnings {ι β : Type} {read : ι → Except EntryError β}
    {leftOut : ι → LoadWarning → Prop} {is : List ι} {bs : List β} {ws : List LoadWarning}
    (h : Sifted read leftOut is bs ws) {w : LoadWarning} (hw : w ∈ ws) : ∃ i ∈ is, leftOut i w := by
  induction h with
  | nil => exact absurd hw List.not_mem_nil
  | keep _ _ ih =>
    obtain ⟨i, hi, hleft⟩ := ih hw
    exact ⟨i, List.mem_cons_of_mem _ hi, hleft⟩
  | leave hnow _ ih =>
    rcases List.mem_cons.mp hw with rfl | hw
    · exact ⟨_, List.mem_cons_self, hnow⟩
    · obtain ⟨i, hi, hleft⟩ := ih hw
      exact ⟨i, List.mem_cons_of_mem _ hi, hleft⟩

namespace Document

variable {α : Type}

/-- An edge that is left out for a cycle stands beside the others of that cycle. -/
theorem hasCycle_of_mem_keepEdges {nodes : List (Node α)} {kindOf : String → Option Kind}
    (hkind : ∀ edges, (Graph.mk nodes edges).kindOf = kindOf) {edges : List Edge} {id : String}
    (h : .droppedEdge id .wouldCycle ∈ (keepEdges kindOf [] [] edges).2) :
    hasCycle edges = true := by
  obtain ⟨kept, -, hsifted⟩ := exists_sifted_keepEdges hkind [] edges
  obtain ⟨e, he, r, hdrop, hagainst⟩ := hsifted.exists_of_mem_warnings h
  cases hdrop
  have hread : Except.toOption ∘ (.ok : Edge → Except EntryError Edge) = some := rfl
  have hkept : kept ⊆ edges := by
    have hsub := hsifted.sublist.subset
    rwa [List.filterMap_map, hread, List.filterMap_some] at hsub
  have hcloses : (Links.ofEdges kept).createsCycle e.source e.target = true :=
    Links.createsCycle_ofEdges_iff.mpr hagainst
  have hcycle : hasCycle (kept ++ [e]) = true := by
    rw [hasCycle_append, hcloses, Bool.or_true]
  have hsub : kept ++ [e] ⊆ edges :=
    List.append_subset.mpr ⟨hkept, List.cons_subset.mpr ⟨he, List.nil_subset edges⟩⟩
  exact hasCycle_mono hsub hcycle

/-- What is said while the edges are added is only that some are left out. -/
theorem ne_cycle_of_mem_keepEdges {nodes : List (Node α)} {kindOf : String → Option Kind}
    (hkind : ∀ edges, (Graph.mk nodes edges).kindOf = kindOf) {edges : List Edge} {w : LoadWarning}
    (h : w ∈ (keepEdges kindOf [] [] edges).2) : w ≠ .cycle := by
  obtain ⟨kept, -, hsifted⟩ := exists_sifted_keepEdges hkind [] edges
  obtain ⟨e, -, r, rfl, -⟩ := hsifted.exists_of_mem_warnings h
  exact nofun

theorem ne_cycle_of_mem_members {document : Json} {w : LoadWarning}
    (h : w ∈ (members document).2) : w ≠ .cycle := by
  rintro rfl
  cases document <;> simp [members] at h

theorem ne_cycle_of_mem_entries {fields : List (String × Json)} {key : String} {w : LoadWarning}
    (h : w ∈ (entries fields key).2) : w ≠ .cycle := by
  rintro rfl
  unfold entries at h
  split at h
  · exact absurd h List.not_mem_nil
  · split at h <;> simp at h

theorem ne_cycle_of_mem_repairParent {kindOf : String → Option Kind} {n : Node α} {w : LoadWarning}
    (h : w ∈ (repairParent kindOf n).2) : w ≠ .cycle := by
  rintro rfl
  unfold repairParent at h
  split at h
  · exact absurd h List.not_mem_nil
  · split at h <;> simp at h

theorem eq_malformedEdge_of_mem_edgesIn {items : List Json} {w : LoadWarning}
    (h : w ∈ (edgesIn items).2) : w = .malformedEdge := by
  obtain ⟨j, -, hj⟩ := List.mem_filterMap.mp h
  split at hj
  · cases hj
  · exact (Option.some.inj hj).symm

variable [Scalar α]

theorem NodeLeftOut.ne_droppedEdge {nodes : List (Node α)} {j : Json} {w : LoadWarning}
    (h : NodeLeftOut nodes j w) (id : String) (r : Rejection) : w ≠ .droppedEdge id r := by
  cases h <;> exact nofun

theorem NodeLeftOut.ne_cycle {nodes : List (Node α)} {j : Json} {w : LoadWarning}
    (h : NodeLeftOut nodes j w) : w ≠ .cycle := by
  cases h <;> exact nofun

theorem exists_nodeLeftOut_of_mem {nodes : List (Node α)} {items : List Json}
    {ws : List LoadWarning} (h : keepNodes [] items = .ok (nodes, ws)) {w : LoadWarning}
    (hw : w ∈ ws) : ∃ j, NodeLeftOut nodes j w := by
  obtain ⟨more, -, hsifted⟩ := exists_sifted_of_keepNodes h
  obtain ⟨j, -, hleft⟩ := hsifted.exists_of_mem_warnings hw
  exact ⟨j, hleft⟩

/-! ## Warnings about the whole document -/

variable {s : Store α} {document : Json} {read : List (Node α)} {ws : List LoadWarning}
  (hread : keepNodes [] (entries (members document).1 "nodes").1 = .ok (read, ws))
include hread

/-- That an edge was left out is said when the edges are added. -/
theorem mem_keepEdges_of_mem_loadWarnings {id : String} {r : Rejection}
    (h : .droppedEdge id r ∈ s.loadWarnings document read ws) :
    .droppedEdge id r ∈ (keepEdges (Graph.mk (completed s.ids read) []).kindOf [] []
      (edgesIn (entries (members document).1 "edges").1).1).2 := by
  have hdrop : .droppedEdge id r ∈
      (s.loadWarnings document read ws).filter LoadWarning.isDrop := List.mem_filter.mpr ⟨h, rfl⟩
  rw [filter_isDrop_loadWarnings] at hdrop
  rcases List.mem_append.mp (List.mem_filter.mp hdrop).1 with hnode | hedge
  · obtain ⟨j, hleft⟩ := exists_nodeLeftOut_of_mem hread hnode
    exact absurd rfl (hleft.ne_droppedEdge id r)
  · rcases List.mem_append.mp hedge with hmalformed | hkept
    · cases eq_malformedEdge_of_mem_edgesIn hmalformed
    · exact hkept

/-- A cycle is reported exactly if the edges that could be read have one. -/
theorem mem_cycle_loadWarnings_iff :
    .cycle ∈ s.loadWarnings document read ws ↔
      hasCycle (edgesIn (entries (members document).1 "edges").1).1 = true := by
  constructor
  · intro h
    simp only [Store.loadWarnings, List.mem_append] at h
    rcases h with (((((((h | h) | h) | h) | h) | h) | h) | h) | h
    · exact absurd rfl (ne_cycle_of_mem_members h)
    · exact absurd rfl (ne_cycle_of_mem_entries h)
    · obtain ⟨j, hleft⟩ := exists_nodeLeftOut_of_mem hread h
      exact absurd rfl hleft.ne_cycle
    · split at h <;> simp at h
    · obtain ⟨repaired, hmem, hw⟩ := List.mem_flatMap.mp h
      obtain ⟨n, -, rfl⟩ := List.mem_map.mp hmem
      exact absurd rfl (ne_cycle_of_mem_repairParent hw)
    · exact absurd rfl (ne_cycle_of_mem_entries h)
    · cases eq_malformedEdge_of_mem_edgesIn h
    · split at h
      · assumption
      · exact absurd h List.not_mem_nil
    · exact absurd rfl (ne_cycle_of_mem_keepEdges (kindOf_repaired (completed s.ids read)) h)
  · intro h
    simp [Store.loadWarnings, h]

end Document

namespace Store

open Document

/-- The search over all edges is exact, and with one more edge it says what the search for that edge
adds to it.  A document's cycle is reported if and only if its readable edges have one, and so an
edge is left out for a cycle only where a cycle was reported. -/
theorem hasCycle_exact (α : Type) [Scalar α] (edges : List Edge) :
    (hasCycle edges = true ↔ ∃ a, TransGen (Feeds edges) a a) ∧
      (∀ e : Edge, hasCycle (edges ++ [e]) =
        (hasCycle edges || (Links.ofEdges edges).createsCycle e.source e.target)) ∧
      ∀ (s s' : Store α) (document : Json) (ws : List LoadWarning),
        s.load document = (s', .ok ws) →
        (LoadWarning.cycle ∈ ws ↔
          hasCycle (edgesIn (entries (members document).1 "edges").1).1 = true) ∧
        ∀ id, LoadWarning.droppedEdge id .wouldCycle ∈ ws → LoadWarning.cycle ∈ ws := by
  refine ⟨hasCycle_iff, hasCycle_append edges, fun s s' document ws h => ?_⟩
  obtain ⟨-, read, ws', hread, rfl, rfl⟩ := load_eq_ok_iff.mp h
  refine ⟨mem_cycle_loadWarnings_iff hread, fun id hdropped => ?_⟩
  have hkept := mem_keepEdges_of_mem_loadWarnings hread hdropped
  exact (mem_cycle_loadWarnings_iff hread).mpr
    (hasCycle_of_mem_keepEdges (kindOf_repaired (completed s.ids read)) hkept)

/-- Of two edges against each other the second is left out, and the cycle is reported. -/
theorem hasCycle_exact_cluttered :
    ∃ s' ws, (startWith .counting usualMetrics).load cluttered = (s', .ok ws) ∧
      LoadWarning.droppedEdge "2" .wouldCycle ∈ ws ∧ LoadWarning.cycle ∈ ws := by
  have hsome : ((startWith .counting usualMetrics).load cluttered).2.toOption.map
      (fun ws => ws.contains (.droppedEdge "2" .wouldCycle)) = some true := by decide +kernel
  rcases hload : (startWith .counting usualMetrics).load cluttered with ⟨s', e | ws⟩
  · rw [hload] at hsome
    cases hsome
  · rw [hload] at hsome
    have hdropped := List.contains_iff_mem.mp (Option.some.inj hsome)
    obtain ⟨-, -, hwarned⟩ := hasCycle_exact Float []
    exact ⟨s', ws, rfl, hdropped, (hwarned _ _ _ _ hload).2 "2" hdropped⟩

end Store

end PromptCanvas
