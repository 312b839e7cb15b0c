import Mathlib.Order.Lattice.Nat
import PromptCanvas.Proofs.Graph.Levels
import PromptCanvas.Proofs.Graph.Upstream

/-!
# The nodes that feed a root

What is collected for a root are the nodes from which a path leads to it through hubs, in the order
of their distance.  Whether the root is a hub makes no difference to either: a path that comes
through the root has a shorter end that starts there.
-/

namespace PromptCanvas
namespace Graph

open Search (ReachedIn)

variable {α : Type} {g : Graph α} {root : String}

/-- A path of so many edges leads from the id to the root, and the nodes on its way are hubs. -/
inductive HubPath (g : Graph α) (root : String) : Nat → String → Prop
  | edge {e : Edge} (he : e ∈ g.edges) (ht : e.target = root) : HubPath g root 1 e.source
  | through {k : Nat} {e : Edge} {m : Node α} (he : e ∈ g.edges) (hm : m ∈ g.nodes)
      (hid : m.id = e.target) (hhub : m.kind.isHub = true) (h : HubPath g root k e.target) :
      HubPath g root (k + 1) e.source

/-- The length of the shortest such path. -/
noncomputable def hubDistance (g : Graph α) (root id : String) : Nat :=
  sInf {k | g.HubPath root k id}

/-! ## Paths and steps -/

theorem mem_nextVisits {s t : String} :
    s ∈ g.nextVisits root t ↔ g.passes root t = true ∧ s ≠ root ∧ g.IsInput s t := by
  rw [nextVisits, Search.mem_without]
  by_cases hp : g.passes root t = true
  · rw [feederSteps_of_passes hp, List.mem_map, and_comm, and_iff_right hp]
    rfl
  · rw [feederSteps, if_neg hp]
    simp [hp]

theorem exists_hub_of_passes {t : String} (hp : g.passes root t = true) (hne : t ≠ root) :
    ∃ m ∈ g.nodes, m.id = t ∧ m.kind.isHub = true := by
  rw [passes, beq_eq_false_iff_ne.mpr hne, Bool.false_or] at hp
  cases hl : g.lookup? t with
  | none => rw [hl] at hp; cases hp
  | some m =>
    rw [hl] at hp
    exact ⟨m, (mem_of_lookup? hl).1, (mem_of_lookup? hl).2, hp⟩

/-- Every step of the search goes against an edge, through the root or a hub. -/
theorem exists_hubPath_of_reachedIn {k : Nat} {id : String}
    (h : ReachedIn (g.nextVisits root) [root] k id) (hid : id ≠ root) :
    ∃ j ≤ k, g.HubPath root j id := by
  induction h with
  | queued h => exact absurd (List.mem_singleton.mp h) hid
  | @step k a b _ hb ih =>
    obtain ⟨hp, -, n, hn, rfl⟩ := mem_nextVisits.mp hb
    obtain ⟨e, he, rfl, hl⟩ := mem_inputs.mp hn
    rw [(mem_of_lookup? hl).2]
    by_cases ha : e.target = root
    · exact ⟨1, Nat.succ_pos k, .edge he ha⟩
    · obtain ⟨j, hj, hpath⟩ := ih ha
      obtain ⟨m, hm, hid, hhub⟩ := exists_hub_of_passes hp ha
      exact ⟨j + 1, Nat.succ_le_succ hj, .through he hm hid hhub hpath⟩

theorem mem_nextVisits_of_edge {e : Edge} (he : e ∈ g.edges) (hs : e.source ∈ g.nodes.map Node.id)
    (hne : e.source ≠ root) (hp : g.passes root e.target = true) :
    e.source ∈ g.nextVisits root e.target := by
  obtain ⟨k, hk⟩ := exists_kindOf_iff.mpr hs
  obtain ⟨n, hn, -⟩ := Option.map_eq_some_iff.mp hk
  exact mem_nextVisits.mpr ⟨hp, hne, n, mem_inputs.mpr ⟨e, he, rfl, hn⟩, (mem_of_lookup? hn).2⟩

section

variable (hids : (g.nodes.map Node.id).Nodup)
include hids

theorem passes_of_mem {m : Node α} (hm : m ∈ g.nodes) (hhub : m.kind.isHub = true) :
    g.passes root m.id = true := by
  rw [passes, (lookup?_eq_some_iff hids).mpr ⟨hm, rfl⟩, Option.map_some, Option.getD_some, hhub,
    Bool.or_true]

/-- The search follows every path, unless it comes to the root again: then it follows the end that
starts there. -/
theorem exists_reachedIn_of_hubPath {k : Nat} {id : String} (h : g.HubPath root k id)
    (hn : id ∈ g.nodes.map Node.id) (hid : id ≠ root) :
    ∃ j ≤ k, ReachedIn (g.nextVisits root) [root] j id := by
  have hdirect : ∀ e ∈ g.edges, e.source ∈ g.nodes.map Node.id → e.source ≠ root →
      e.target = root → ReachedIn (g.nextVisits root) [root] 1 e.source := by
    intro e he hs hne ht
    exact .step (.queued (List.mem_singleton.mpr ht))
      (mem_nextVisits_of_edge he hs hne (ht ▸ passes_self g e.target))
  induction h with
  | edge he ht => exact ⟨1, Nat.le_refl 1, hdirect _ he hn hid ht⟩
  | @through k e m he hm ht hhub hpath ih =>
    by_cases hroot : e.target = root
    · exact ⟨1, Nat.succ_pos k, hdirect e he hn hid hroot⟩
    · obtain ⟨j, hj, hreached⟩ := ih (ht ▸ List.mem_map_of_mem hm) hroot
      have hp : g.passes root e.target = true := ht ▸ passes_of_mem hids hm hhub
      exact ⟨j + 1, Nat.succ_le_succ hj, .step hreached (mem_nextVisits_of_edge he hn hid hp)⟩

end

/-! ## Visits -/

/-- The ids that the search may enter. -/
def enterable (g : Graph α) (root : String) : List String :=
  Search.without root (g.nodes.map Node.id)

theorem mem_enterable_of_mem_nextVisits {s t : String} (h : s ∈ g.nextVisits root t) :
    s ∈ g.enterable root := by
  obtain ⟨-, hne, n, hn, rfl⟩ := mem_nextVisits.mp h
  exact Search.mem_without.mpr ⟨id_mem_of_mem_inputs hn, hne⟩

theorem disjoint_enterable (g : Graph α) (root : String) : [root].Disjoint (g.enterable root) := by
  rw [List.singleton_disjoint]
  exact fun h => (Search.mem_without.mp h).2 rfl

/-- The search goes on at nodes alone, and from the root. -/
theorem visited_enterable (g : Graph α) (root : String) :
    Search.Visited (g.nextVisits root) (g.enterable root) [root] := by
  intro t hroot hpending s hs _
  obtain ⟨hp, -⟩ := mem_nextVisits.mp hs
  have hne : t ≠ root := fun e => hroot (List.mem_singleton.mpr e)
  obtain ⟨m, hm, rfl, -⟩ := exists_hub_of_passes hp hne
  exact hpending (Search.mem_without.mpr ⟨List.mem_map_of_mem hm, hne⟩)

theorem mem_visitOrder_iff {id : String} :
    id ∈ g.visitOrder root ↔ ∃ k, ReachedIn (g.nextVisits root) [root] k id := by
  rw [Search.exists_reachedIn_iff]
  exact Search.mem_reach_iff fun _ _ h => Or.inl (mem_enterable_of_mem_nextVisits h)

theorem mem_tail_visitOrder_iff {id : String} :
    id ∈ (g.visitOrder root).tail ↔ id ∈ g.visitOrder root ∧ id ≠ root := by
  obtain ⟨rest, horder, hroot⟩ := exists_visitOrder_eq g root
  rw [horder, List.tail_cons, List.mem_cons]
  constructor
  · exact fun h => ⟨Or.inr h, fun e => hroot (e ▸ h)⟩
  · rintro ⟨hid | hid, hne⟩
    · exact absurd hid hne
    · exact hid

theorem nodup_visitOrder (g : Graph α) (root : String) : (g.visitOrder root).Nodup :=
  Search.nodup_reach (List.nodup_singleton root) (disjoint_enterable g root)

theorem mem_nodes_of_mem_visitOrder {id : String} (h : id ∈ g.visitOrder root) (hid : id ≠ root) :
    id ∈ g.nodes.map Node.id := by
  rcases Search.mem_of_mem_reach h with hroot | hmem
  · exact absurd (List.mem_singleton.mp hroot) hid
  · exact (Search.mem_without.mp hmem).1

section

variable (hids : (g.nodes.map Node.id).Nodup)
include hids

/-- Away from the root the search visits the nodes from which a path of hubs leads there. -/
theorem mem_visitOrder_iff_exists_hubPath {id : String} (hid : id ≠ root) :
    id ∈ g.visitOrder root ↔ id ∈ g.nodes.map Node.id ∧ ∃ k, g.HubPath root k id := by
  constructor
  · intro h
    obtain ⟨k, hk⟩ := mem_visitOrder_iff.mp h
    obtain ⟨j, -, hj⟩ := exists_hubPath_of_reachedIn hk hid
    exact ⟨mem_nodes_of_mem_visitOrder h hid, j, hj⟩
  · rintro ⟨hn, k, hk⟩
    obtain ⟨j, -, hj⟩ := exists_reachedIn_of_hubPath hids hk hn hid
    exact mem_visitOrder_iff.mpr ⟨j, hj⟩

/-- The search visits the nodes in the order of their distance. -/
theorem pairwise_hubDistance_visitOrder : (g.visitOrder root).tail.Pairwise fun s t =>
    g.hubDistance root s ≤ g.hubDistance root t := by
  have hpairs := (Search.pairwise_reach (visited_enterable g root) (disjoint_enterable g root)).tail
  refine hpairs.imp_of_mem fun {s t} hs ht hst => ?_
  obtain ⟨-, hsroot⟩ := mem_tail_visitOrder_iff.mp hs
  obtain ⟨ht, htroot⟩ := mem_tail_visitOrder_iff.mp ht
  obtain ⟨hn, hpath⟩ := (mem_visitOrder_iff_exists_hubPath hids htroot).mp ht
  obtain ⟨k, hk, hkt⟩ := exists_reachedIn_of_hubPath hids (Nat.sInf_mem hpath) hn htroot
  obtain ⟨j, hj, hjs⟩ := hst k hkt
  obtain ⟨i, hi, his⟩ := exists_hubPath_of_reachedIn hjs hsroot
  calc g.hubDistance root s ≤ i := Nat.sInf_le his
    _ ≤ j := hi
    _ ≤ k := hj
    _ ≤ g.hubDistance root t := hk

theorem mem_feedersOf_iff {kinds : List Kind} {n : Node α} : n ∈ g.feedersOf root kinds ↔
    n ∈ g.nodes ∧ n.id ≠ root ∧ n.kind ∈ kinds ∧ ∃ k, g.HubPath root k n.id := by
  rw [feedersOf_eq, List.drop_one, List.mem_filter, List.mem_filterMap, List.contains_iff_mem]
  constructor
  · rintro ⟨⟨t, ht, hl⟩, hk⟩
    obtain ⟨hn, rfl⟩ := mem_of_lookup? hl
    obtain ⟨ht, hne⟩ := mem_tail_visitOrder_iff.mp ht
    exact ⟨hn, hne, hk, ((mem_visitOrder_iff_exists_hubPath hids hne).mp ht).2⟩
  · rintro ⟨hn, hne, hk, hpath⟩
    have hvisited := (mem_visitOrder_iff_exists_hubPath hids hne).mpr
      ⟨List.mem_map_of_mem hn, hpath⟩
    exact ⟨⟨n.id, mem_tail_visitOrder_iff.mpr ⟨hvisited, hne⟩,
      (lookup?_eq_some_iff hids).mpr ⟨hn, rfl⟩⟩, hk⟩

theorem pairwise_hubDistance_feedersOf (kinds : List Kind) :
    (g.feedersOf root kinds).Pairwise fun m n =>
      g.hubDistance root m.id ≤ g.hubDistance root n.id := by
  rw [feedersOf_eq, List.drop_one]
  refine List.Pairwise.filter _ (List.pairwise_filterMap.mpr ?_)
  refine (pairwise_hubDistance_visitOrder hids).imp fun {s t} hst m hm n hn => ?_
  rwa [(mem_of_lookup? hm).2, (mem_of_lookup? hn).2]

end

/-! ## Ids -/

/-- The id is that of a node of one of the kinds. -/
def isAmong (g : Graph α) (kinds : List Kind) (id : String) : Bool :=
  (g.kindOf id).any kinds.contains

theorem isAmong_of_lookup? {id : String} {n : Node α} (h : g.lookup? id = some n)
    (kinds : List Kind) : g.isAmong kinds id = kinds.contains n.kind := by
  rw [isAmong, kindOf, h]
  rfl

theorem map_id_feedersOf (g : Graph α) (root : String) (kinds : List Kind) :
    (g.feedersOf root kinds).map Node.id = (g.visitOrder root).tail.filter (g.isAmong kinds) := by
  rw [feedersOf_eq, List.drop_one]
  induction (g.visitOrder root).tail with
  | nil => rfl
  | cons t rest ih =>
    cases hl : g.lookup? t with
    | none =>
      have hout : ¬ g.isAmong kinds t = true := by simp [isAmong, kindOf, hl]
      rw [List.filterMap_cons_none hl, List.filter_cons_of_neg hout, ih]
    | some n =>
      rw [List.filterMap_cons_some hl, List.filter_cons, List.filter_cons, isAmong_of_lookup? hl]
      split
      · rw [List.map_cons, ih, (mem_of_lookup? hl).2]
      · exact ih

theorem nodup_map_id_feedersOf (g : Graph α) (root : String) (kinds : List Kind) :
    ((g.feedersOf root kinds).map Node.id).Nodup := by
  rw [map_id_feedersOf]
  exact (nodup_visitOrder g root).tail.filter _

/-- The ids of the root's inputs of some kinds, in the order of the edges, each once. -/
def inputIds (g : Graph α) (root : String) (kinds : List Kind) : List String :=
  (((g.inputs root).filter fun n => n.id != root && kinds.contains n.kind).map Node.id).eraseDups

/-- From the root the search enters its inputs. -/
theorem filter_enter_nextVisits (g : Graph α) (root : String) (kinds : List Kind) :
    (Search.enter (g.nextVisits root root) (g.enterable root)).1.filter (g.isAmong kinds) =
      g.inputIds root kinds := by
  have hamong : ∀ n ∈ g.inputs root, n.id ≠ root →
      g.isAmong kinds n.id = kinds.contains n.kind :=
    fun n hn _ => isAmong_of_lookup? (lookup?_of_mem_inputs hn) kinds
  have henter : ∀ id ∈ (g.nextVisits root root).filter (g.isAmong kinds),
      decide (id ∈ g.enterable root) = true := by
    intro id hid
    exact decide_eq_true (mem_enterable_of_mem_nextVisits (List.mem_filter.mp hid).1)
  rw [← Search.enter_filter, Search.enter_fst_eq_eraseDups, List.filter_eq_self.mpr henter,
    filter_nextVisits (passes_self g root) hamong, Search.without, List.filter_map,
    List.filter_filter, inputIds]
  refine congrArg (fun ns => (List.map Node.id ns).eraseDups) (List.filter_congr fun n _ => ?_)
  rw [Function.comp_apply, bne, beq_eq_decide, decide_not]

/-- The inputs of the root come first. -/
theorem exists_map_id_feedersOf_eq (g : Graph α) (root : String) (kinds : List Kind) :
    ∃ later, (g.feedersOf root kinds).map Node.id = g.inputIds root kinds ++ later ∧
      ∀ n ∈ g.inputs root, n.id ∉ later := by
  have hprefix : (Search.enter (g.nextVisits root root) (g.enterable root)).1 <+:
      (g.visitOrder root).tail := by
    rw [visitOrder, Search.reach_cons, List.tail_cons]
    exact Search.queue_prefix_reach _ _
  obtain ⟨later, hlater⟩ := hprefix
  refine ⟨later.filter (g.isAmong kinds), ?_, fun n hn hmem => ?_⟩
  · rw [map_id_feedersOf, ← hlater, List.filter_append, filter_enter_nextVisits]
  · have hmem := (List.mem_filter.mp hmem).1
    have hnodup := (nodup_visitOrder g root).tail
    rw [← hlater] at hnodup
    have hne : n.id ≠ root :=
      (mem_tail_visitOrder_iff.mp (hlater ▸ List.mem_append_right _ hmem)).2
    have hnext : n.id ∈ g.nextVisits root root :=
      mem_nextVisits.mpr ⟨passes_self g root, hne, n, hn, rfl⟩
    have hentered := Search.mem_enter_fst.mpr ⟨hnext, mem_enterable_of_mem_nextVisits hnext⟩
    exact (List.nodup_append.mp hnodup).2.2 _ hentered _ hmem rfl

/-! ## All together -/

/-- For a graph whose nodes have distinct ids, cyclic or not, the collected nodes have distinct ids.
They are the other nodes of the kinds from which a path of hubs leads to the root.  Nearer ones come
before those farther away, and first the inputs of the root in the order of the edges.  Collecting
fewer kinds only leaves nodes out. -/
theorem feedersOf_exact (hids : (g.nodes.map Node.id).Nodup) (root : String) (kinds : List Kind) :
    ((g.feedersOf root kinds).map Node.id).Nodup ∧
      (∀ n, n ∈ g.feedersOf root kinds ↔
        n ∈ g.nodes ∧ n.id ≠ root ∧ n.kind ∈ kinds ∧ ∃ k, g.HubPath root k n.id) ∧
      ((g.feedersOf root kinds).Pairwise fun m n =>
        g.hubDistance root m.id ≤ g.hubDistance root n.id) ∧
      (∃ later, (g.feedersOf root kinds).map Node.id = g.inputIds root kinds ++ later ∧
        ∀ n ∈ g.inputs root, n.id ∉ later) ∧
      g.feedersOf root kinds = (g.feedersOf root Kind.all).filter fun n => kinds.contains n.kind :=
  ⟨nodup_map_id_feedersOf g root kinds, fun _ => mem_feedersOf_iff hids,
    pairwise_hubDistance_feedersOf hids kinds, exists_map_id_feedersOf_eq g root kinds,
    feedersOf_eq_filter g root kinds⟩

/-- Two hubs in a ring, a subject behind them, and an edge whose source is gone. -/
def looped : Graph Int where
  nodes := [
    ⟨"out", .output, Kind.starting .output, ⟨0, 0⟩, false, none⟩,
    ⟨"ann", .subjectRoot, Kind.starting .subjectRoot, ⟨0, 0⟩, false, none⟩,
    ⟨"near", .assembler, Kind.starting .assembler, ⟨0, 0⟩, false, none⟩,
    ⟨"far", .group, Kind.starting .group, ⟨0, 0⟩, false, none⟩]
  edges := [
    ⟨"1", "gone", "out"⟩, ⟨"2", "near", "out"⟩, ⟨"3", "near", "out"⟩, ⟨"4", "far", "near"⟩,
    ⟨"5", "near", "far"⟩, ⟨"6", "ann", "far"⟩, ⟨"7", "out", "far"⟩]

theorem feedersOf_exact_looped :
    (looped.nodes.map Node.id).Nodup ∧
      (looped.feedersOf "out" Kind.all).map Node.id = ["near", "far", "ann"] ∧
      looped.inputIds "out" Kind.all = ["near"] ∧
      (∃ k, looped.HubPath "out" k "ann") ∧
      looped.hubDistance "out" "far" ≤ looped.hubDistance "out" "ann" := by
  have hids : (looped.nodes.map Node.id).Nodup := by decide
  have hfound : (looped.feedersOf "out" Kind.all).map Node.id = ["near", "far", "ann"] := by
    decide +kernel
  obtain ⟨-, hmem, hpairs, -, -⟩ := feedersOf_exact hids "out" Kind.all
  have hsorted : ((looped.feedersOf "out" Kind.all).map Node.id).Pairwise fun s t =>
      looped.hubDistance "out" s ≤ looped.hubDistance "out" t := List.pairwise_map.mpr hpairs
  refine ⟨hids, hfound, by decide +kernel, ?_, ?_⟩
  · have hann : "ann" ∈ (looped.feedersOf "out" Kind.all).map Node.id := by rw [hfound]; decide
    obtain ⟨n, hn, hid⟩ := List.mem_map.mp hann
    exact hid ▸ ((hmem n).mp hn).2.2.2
  · rw [hfound] at hsorted
    exact (List.pairwise_cons.mp (List.pairwise_cons.mp hsorted).2).1 "ann"
      (List.mem_singleton_self "ann")

end Graph
end PromptCanvas
