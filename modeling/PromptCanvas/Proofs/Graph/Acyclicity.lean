import Mathlib.Data.List.Induction
import PromptCanvas.Proofs.Graph.Cycles

/-!
# Links and acyclic edges

`Feeds edges` is the relation that the edges draw, and edges are acyclic if nothing feeds itself
through them.  The links that are built from edges hold that relation and no more, so the searches
of the links tell of the edges: an edge may be added to acyclic edges if and only if it closes no
cycle with them, and edges have a cycle if and only if the search in depth comes to one.
-/

namespace PromptCanvas

open Relation

/-- Some edge goes from the first node to the second. -/
def Feeds (edges : List Edge) (a b : String) : Prop := ∃ e ∈ edges, e.source = a ∧ e.target = b

/-- Nothing feeds itself, directly or through others. -/
def Acyclic (edges : List Edge) : Prop := ∀ a, ¬ TransGen (Feeds edges) a a

theorem feeds_append {edges : List Edge} {e : Edge} {a b : String} :
    Feeds (edges ++ [e]) a b ↔ Feeds edges a b ∨ e.source = a ∧ e.target = b := by
  simp [Feeds, or_and_right, exists_or]

theorem Feeds.mono {edges more : List Edge} (h : edges ⊆ more) : Feeds edges ≤ Feeds more := by
  rintro a b ⟨e, he, hs⟩
  exact ⟨e, h he, hs⟩

/-! ## Links -/

namespace Links

theorem targets_add_self (l : Links) (source target : String) :
    (l.add source target).targets source = l.targets source ++ [target] := by
  rw [add, targets, Keyed.find?_set_self, Option.getD_some]

theorem targets_add_of_ne (l : Links) {source other : String} (h : other ≠ source)
    (target : String) : (l.add source target).targets other = l.targets other := by
  unfold add targets
  rw [Keyed.find?_set_ne h]

theorem mem_targets_add {l : Links} {source target a b : String} :
    b ∈ (l.add source target).targets a ↔ b ∈ l.targets a ∨ a = source ∧ b = target := by
  by_cases h : a = source
  · subst h; simp [targets_add_self]
  · simp [targets_add_of_ne l h, h]

theorem ofEdges_append (edges : List Edge) (e : Edge) :
    ofEdges (edges ++ [e]) = (ofEdges edges).add e.source e.target := by
  rw [ofEdges, List.foldl_append]; rfl

/-- The links of edges hold the edges and nothing else. -/
theorem mem_targets_ofEdges {edges : List Edge} {a b : String} :
    b ∈ (ofEdges edges).targets a ↔ Feeds edges a b := by
  induction edges using List.reverseRecOn with
  | nil => simp [ofEdges, targets, Keyed.find?, Feeds]
  | append_singleton edges e ih =>
    rw [ofEdges_append, mem_targets_add, ih, feeds_append]
    exact or_congr_right ⟨fun h => ⟨h.1.symm, h.2.symm⟩, fun h => ⟨h.1.symm, h.2.symm⟩⟩

/-- The search from the target finds the source exactly if the target feeds it already. -/
theorem createsCycle_iff {l : Links} {source target : String} :
    l.createsCycle source target = true ↔ ReflTransGen l.Leads target source := by
  rw [createsCycle, Bool.or_eq_true, beq_iff_eq, meets_iff, reflTransGen_iff_eq_or_transGen]

theorem createsCycle_ofEdges_iff {edges : List Edge} {source target : String} :
    (ofEdges edges).createsCycle source target = true ↔
      ReflTransGen (Feeds edges) target source := by
  have hrel : (ofEdges edges).Leads = Feeds edges :=
    funext fun _ => funext fun _ => propext mem_targets_ofEdges
  rw [createsCycle_iff, hrel]

/-! ### With an entry for each node -/

theorem targets_mention (l : Links) (id a : String) : (l.mention id).targets a = l.targets a := by
  rw [mention]
  split
  · rfl
  · rename_i hkey
    by_cases ha : a = id
    · have hnone : Keyed.find? id l = none :=
        Keyed.find?_eq_none_iff.mpr fun h => hkey (List.contains_iff_mem.mpr h)
      rw [ha, targets, targets, Keyed.find?_set_self, hnone]
      rfl
    · rw [targets, targets, Keyed.find?_set_ne ha]

theorem spanning_append (edges : List Edge) (e : Edge) :
    spanning (edges ++ [e]) = ((spanning edges).add e.source e.target).mention e.target := by
  rw [spanning, List.foldl_append]; rfl

theorem leads_spanning (edges : List Edge) : (spanning edges).Leads = Feeds edges := by
  funext a b
  refine propext ?_
  induction edges using List.reverseRecOn with
  | nil => simp [spanning, Leads, targets, Keyed.find?, Feeds]
  | append_singleton edges e ih =>
    rw [spanning_append, Leads, targets_mention, mem_targets_add, feeds_append, ← ih]
    exact or_congr_right ⟨fun h => ⟨h.1.symm, h.2.symm⟩, fun h => ⟨h.1.symm, h.2.symm⟩⟩

end Links

/-! ## Adding edges -/

theorem acyclic_nil : Acyclic [] := by
  intro a h
  obtain ⟨b, ⟨e, he, _⟩, _⟩ := TransGen.head'_iff.mp h
  exact absurd he List.not_mem_nil

/-- What feeds nothing of itself still does so with fewer edges. -/
theorem Acyclic.mono {edges more : List Edge} (h : edges ⊆ more) (hm : Acyclic more) :
    Acyclic edges :=
  fun a ha => hm a (TransGen.mono (Feeds.mono h) a a ha)

/-- A path with one more edge uses that edge or does not.  If it does, the old edges lead to its
first use and from its last. -/
theorem transGen_feeds_append {edges : List Edge} {e : Edge} {a b : String}
    (h : TransGen (Feeds (edges ++ [e])) a b) :
    TransGen (Feeds edges) a b ∨
      ReflTransGen (Feeds edges) a e.source ∧ ReflTransGen (Feeds edges) e.target b := by
  induction h with
  | single hab =>
    rcases feeds_append.mp hab with hab | ⟨rfl, rfl⟩
    · exact Or.inl (.single hab)
    · exact Or.inr ⟨.refl, .refl⟩
  | tail _ hbc ih =>
    rcases feeds_append.mp hbc with hbc | ⟨rfl, rfl⟩
    · rcases ih with h | ⟨hs, ht⟩
      · exact Or.inl (h.tail hbc)
      · exact Or.inr ⟨hs, ht.tail hbc⟩
    · rcases ih with h | ⟨hs, _⟩
      · exact Or.inr ⟨h.to_reflTransGen, .refl⟩
      · exact Or.inr ⟨hs, .refl⟩

/-- One more edge keeps edges acyclic exactly if its target does not feed its source already. -/
theorem acyclic_append_iff {edges : List Edge} {e : Edge} :
    Acyclic (edges ++ [e]) ↔
      Acyclic edges ∧ ¬ ReflTransGen (Feeds edges) e.target e.source := by
  constructor
  · intro h
    refine ⟨h.mono (List.subset_append_left edges [e]), fun hpath => h e.source ?_⟩
    have he : Feeds (edges ++ [e]) e.source e.target := feeds_append.mpr (Or.inr ⟨rfl, rfl⟩)
    have hold : ReflTransGen (Feeds (edges ++ [e])) e.target e.source :=
      ReflTransGen.mono (Feeds.mono (List.subset_append_left edges [e])) _ _ hpath
    exact TransGen.head' he hold
  · rintro ⟨hac, hne⟩ a ha
    rcases transGen_feeds_append ha with h | ⟨hs, ht⟩
    · exact hac a h
    · exact hne (ht.trans hs)

/-! ## Cycles -/

theorem hasCycle_iff {edges : List Edge} :
    hasCycle edges = true ↔ ∃ a, TransGen (Feeds edges) a a := by
  rw [hasCycle, Links.runsInCircles_keys_iff, Links.leads_spanning]

theorem hasCycle_eq_false_iff {edges : List Edge} : hasCycle edges = false ↔ Acyclic edges := by
  rw [← Bool.not_eq_true, hasCycle_iff, not_exists]
  rfl

theorem hasCycle_mono {edges more : List Edge} (hsub : edges ⊆ more) (h : hasCycle edges = true) :
    hasCycle more = true := by
  obtain ⟨a, ha⟩ := hasCycle_iff.mp h
  exact hasCycle_iff.mpr ⟨a, TransGen.mono (Feeds.mono hsub) a a ha⟩

/-- The two searches agree: with one more edge there is a cycle exactly if there was one before or
the edge closes one. -/
theorem hasCycle_append (edges : List Edge) (e : Edge) :
    hasCycle (edges ++ [e]) =
      (hasCycle edges || (Links.ofEdges edges).createsCycle e.source e.target) := by
  rw [Bool.eq_iff_iff, Bool.or_eq_true, ← not_iff_not, not_or, Bool.not_eq_true, Bool.not_eq_true,
    hasCycle_eq_false_iff, hasCycle_eq_false_iff, Links.createsCycle_ofEdges_iff]
  exact acyclic_append_iff

end PromptCanvas
