import PromptCanvas.Proofs.Store.Stops
import PromptCanvas.Store.Operation

/-!
# Changes are made as a whole

An operation is refused, and the store is what it was, or it is applied by one commit, and every
listener is told of the graph that is then in place.  `Change` says this of two stores.  It is
proved for each operation but loading, which can stop half way: a fresh output draws its id before
the edges are read.  `Attempt` allows for this, and whatever holds of the store after any operation
follows from it without a look at the operation.
-/

namespace PromptCanvas
namespace Store

variable {α : Type}

/-- What becomes of a store when it is asked for a change: nothing, or one commit, perhaps after ids
were drawn.  The links that are committed are those of the edges if the store's links were. -/
inductive Change (s : Store α) : Store α → Bool → Prop
  | refused : Change s s false
  | applied (ids : IdSource) (graph : Graph α) (links : Links)
      (hlinks : s.links = .ofEdges s.graph.edges → links = .ofEdges graph.edges) :
      Change s ({ s with ids }.commit graph links) true

namespace Change

variable {s s' : Store α} {done : Bool}

theorem eq_of_refused (h : s.Change s' false) : s' = s := by
  cases h
  rfl

theorem links_eq (h : s.Change s' done) (hs : s.links = .ofEdges s.graph.edges) :
    s'.links = .ofEdges s'.graph.edges := by
  cases h with
  | refused => exact hs
  | applied ids graph links hlinks => exact hlinks hs

theorem metrics_eq (h : s.Change s' done) : s'.metrics = s.metrics := by
  cases h <;> rfl

theorem listeners_eq (h : s.Change s' done) : s'.listeners = s.listeners := by
  cases h <;> rfl

theorem deliveries_eq (h : s.Change s' done) :
    s'.deliveries = s.deliveries ++ if done then s.listeners.map fun l => (l, s'.graph) else [] := by
  cases h with
  | refused => exact (List.append_nil s.deliveries).symm
  | applied ids graph links hlinks => rfl

theorem told_eq (h : s.Change s' done) (l : Listener) :
    s'.told l = s.told l + if done then s.listeners.count l else 0 := by
  have hcount : ∀ ls : List Listener,
      ((ls.map fun k => (k, s'.graph)).filter (·.1 == l)).length = ls.count l := by
    intro ls
    rw [List.filter_map, List.length_map, List.count_eq_length_filter]
    rfl
  rw [told, told, h.deliveries_eq, List.filter_append, List.length_append]
  cases done with
  | false => rfl
  | true => rw [if_pos rfl, if_pos rfl, hcount]

end Change

/-- What becomes of a store when it is asked for an operation: a change, made or refused, or loading
has stopped after a fresh output drew its id. -/
inductive Attempt (s : Store α) : Store α → Bool → Prop
  | change {s' : Store α} {done : Bool} (h : s.Change s' done) : Attempt s s' done
  | stopped : Attempt s { s with ids := s.ids.advance } false

namespace Attempt

variable {s s' : Store α} {done : Bool}

theorem links_eq (h : s.Attempt s' done) (hs : s.links = .ofEdges s.graph.edges) :
    s'.links = .ofEdges s'.graph.edges := by
  cases h with
  | change h => exact h.links_eq hs
  | stopped => exact hs

theorem metrics_eq (h : s.Attempt s' done) : s'.metrics = s.metrics := by
  cases h with
  | change h => exact h.metrics_eq
  | stopped => rfl

theorem listeners_eq (h : s.Attempt s' done) : s'.listeners = s.listeners := by
  cases h with
  | change h => exact h.listeners_eq
  | stopped => rfl

theorem told_eq (h : s.Attempt s' done) (l : Listener) :
    s'.told l = s.told l + if done then s.listeners.count l else 0 := by
  cases h with
  | change h => exact h.told_eq l
  | stopped => rfl

theorem graph_eq_of_refused (h : s.Attempt s' false) : s'.graph = s.graph := by
  cases h with
  | change h => rw [h.eq_of_refused]
  | stopped => rfl

end Attempt

/-! ## Each operation -/

theorem change_addNode (s : Store α) (kind : Kind) (position : Point α) :
    s.Change (s.addNode kind position).1 (s.addNode kind position).2.isSome := by
  unfold addNode
  split
  · exact .refused
  · exact .applied _ _ _ id

theorem change_updateAttributes (s : Store α) (id : String) (changes : List (String × Json)) :
    s.Change (s.updateAttributes id changes).1
      ((s.updateAttributes id changes).2.toOption.getD false) := by
  unfold updateAttributes
  split
  · exact .refused
  · split
    · exact .refused
    · exact .applied s.ids _ _ fun h => h

theorem change_setCollapsed (s : Store α) (id : String) (collapsed : Bool)
    (positions : List (String × Point α)) :
    s.Change (s.setCollapsed id collapsed positions).1 (s.setCollapsed id collapsed positions).2 := by
  unfold setCollapsed
  split
  · exact .refused
  · split
    · exact .refused
    · exact .applied s.ids _ _ fun h => h

theorem change_setParent (s : Store α) (id : String) (group : Option String) :
    s.Change (s.setParent id group).1 (s.setParent id group).2 := by
  unfold setParent
  split
  · exact .refused
  · split
    · exact .applied s.ids _ _ fun h => h
    · exact .refused

theorem change_addEdge (s : Store α) (source target : String) :
    s.Change (s.addEdge source target).1 (s.addEdge source target).2.isSome := by
  unfold addEdge
  split
  · exact .refused
  · refine .applied _ _ _ fun h => ?_
    rw [Links.ofEdges_append, ← h]

theorem change_removeEdge (s : Store α) (id : String) :
    s.Change (s.removeEdge id).1 (s.removeEdge id).2 := by
  unfold removeEdge
  split
  · exact .applied s.ids _ _ fun _ => rfl
  · exact .refused

variable [Scalar α]

theorem change_deleteNodes (s : Store α) (ids : List String) :
    s.Change (s.deleteNodes ids).1 (!(s.deleteNodes ids).2.isEmpty) := by
  unfold deleteNodes
  dsimp only
  by_cases hnone : (s.deletable ids).isEmpty = true
  · rw [if_pos hnone]
    exact .refused
  · rw [if_neg hnone]
    rw [Bool.not_eq_true] at hnone
    split <;> dsimp only <;> rw [hnone]
    · exact .applied s.ids _ _ fun _ => rfl
    · exact .applied _ _ _ fun _ => rfl

theorem change_commitPositions (s : Store α) (positions : List (String × Point α)) :
    s.Change (s.commitPositions positions).1 (s.commitPositions positions).2 := by
  unfold commitPositions
  split
  · exact .applied s.ids _ _ fun h => h
  · exact .refused

theorem change_reset (s : Store α) : s.Change s.reset true :=
  .applied _ _ _ fun _ => rfl

theorem change_addConnected (s : Store α) (anchor : String) (kind : Kind) :
    s.Change (s.addConnected anchor kind).1 (s.addConnected anchor kind).2.isSome := by
  unfold addConnected
  split
  · exact .refused
  · split
    · exact .refused
    · dsimp only
      split
      · exact .applied _ _ _ fun _ => rfl
      · split
        · exact .applied _ _ _ fun _ => rfl
        · exact .applied _ _ _ fun _ => rfl

theorem change_load {s s' : Store α} {document : Json} {ws : List LoadWarning}
    (h : s.load document = (s', .ok ws)) : s.Change s' true := by
  obtain ⟨-, read, w, -, rfl, -⟩ := load_eq_ok_iff.mp h
  exact .applied _ _ _ fun _ => Document.links_keepEdges _ [] _

open Document in
/-- Where loading stops, nothing is done, unless it stops at an edge. -/
theorem eq_of_load_eq_error {s s' : Store α} {document : Json} {e : EntryError}
    (h : s.load document = (s', .error e)) :
    s' = s ∨ (∃ j ∈ (entries (members document).1 "edges").1, Edge.Stops j) ∧
      s' = { s with ids := s.ids.advance } := by
  rw [load_eq] at h
  cases hnodes : keepNodes (α := α) [] (entries (members document).1 "nodes").1 with
  | error e =>
    rw [hnodes] at h
    cases h
    exact Or.inl rfl
  | ok r =>
    obtain ⟨read, w⟩ := r
    cases hedges : readEdges (entries (members document).1 "edges").1 with
    | ok r =>
      rw [hnodes, hedges] at h
      cases h
    | error e =>
      rw [hnodes, hedges] at h
      cases h
      by_cases hout : read.any Node.isOutput = true
      · left
        rw [readied, if_pos hout]
      · refine Or.inr ⟨exists_stops_of_readEdges_eq_error hedges, ?_⟩
        rw [readied, if_neg hout]

/-- Every operation but loading is refused or applied as a whole, and its answer says which. -/
theorem change_apply (s : Store α) {op : Operation α} (hop : ∀ document, op ≠ .load document) :
    s.Change (s.apply op).1 (s.apply op).2.accepted := by
  cases op with
  | addNode kind position => exact s.change_addNode kind position
  | updateAttributes id changes =>
    have h := s.change_updateAttributes id changes
    rcases hr : s.updateAttributes id changes with ⟨s', _ | done⟩ <;> rw [hr] at h <;>
      simp only [Store.apply, hr] <;> exact h
  | deleteNodes ids => exact s.change_deleteNodes ids
  | commitPositions positions => exact s.change_commitPositions positions
  | setCollapsed id collapsed positions => exact s.change_setCollapsed id collapsed positions
  | setParent id group => exact s.change_setParent id group
  | reset => exact s.change_reset
  | addEdge source target => exact s.change_addEdge source target
  | removeEdge id => exact s.change_removeEdge id
  | addConnected anchor kind => exact s.change_addConnected anchor kind
  | load document => exact absurd rfl (hop document)

theorem attempt_apply (s : Store α) (op : Operation α) :
    s.Attempt (s.apply op).1 (s.apply op).2.accepted := by
  by_cases hop : ∃ document, op = .load document
  · obtain ⟨document, rfl⟩ := hop
    rcases hl : s.load document with ⟨s', e | ws⟩
    · simp only [Store.apply, hl]
      rcases eq_of_load_eq_error hl with rfl | ⟨-, rfl⟩
      · exact .change .refused
      · exact .stopped
    · simp only [Store.apply, hl]
      exact .change (change_load hl)
  · exact .change (s.change_apply fun document h => hop ⟨document, h⟩)

/-- The metrics where nothing is set. -/
def usualMetrics : Metrics Float := ⟨200, 50, 120, 20, 5, 12, 24, 20, 30, 0.1, 5, 0.1, 0.001⟩

end Store
end PromptCanvas
