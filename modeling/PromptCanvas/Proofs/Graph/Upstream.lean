import Mathlib.Data.List.Forall2
import PromptCanvas.Graph.Traversal
import PromptCanvas.Proofs.Graph.Sound
import PromptCanvas.Proofs.Graph.Visits

/-!
# Upstream of a root

The nodes that feed a root are found by a search against the edges that goes on at hubs alone.  This
file says what that search depends on: for two graphs in which each node upstream of the root has
the same inputs, as far as the order of the hubs and the order within each other kind go,
`Corresponds.feeders` finds corresponding nodes of each kind in the same order.

The inputs are compared class by class because their order across the classes is lost anyway: hubs
decide where the search goes next, and each other kind is taken out of what is found by itself.
-/

namespace PromptCanvas

theorem exists_related_of_mem {γ δ : Type} {R : γ → δ → Prop} {cs : List γ} {ds : List δ}
    (h : List.Forall₂ R cs ds) {c : γ} (hc : c ∈ cs) : ∃ d ∈ ds, R c d := by
  induction h with
  | nil => exact absurd hc List.not_mem_nil
  | cons hr _ ih =>
    rcases List.mem_cons.mp hc with rfl | hc
    · exact ⟨_, List.mem_cons_self, hr⟩
    · obtain ⟨d, hd, hr⟩ := ih hc
      exact ⟨d, List.mem_cons_of_mem _ hd, hr⟩

theorem map_eq_of_related {γ δ ε : Type} {R : γ → δ → Prop} {cs : List γ} {ds : List δ}
    (h : List.Forall₂ R cs ds) {φ : γ → ε} {ψ : δ → ε}
    (hφ : ∀ c ∈ cs, ∀ d, R c d → ψ d = φ c) : ds.map ψ = cs.map φ := by
  induction h with
  | nil => rfl
  | cons hr _ ih =>
    rw [List.map_cons, List.map_cons, hφ _ List.mem_cons_self _ hr,
      ih fun c hc => hφ c (List.mem_cons_of_mem _ hc)]

theorem filterMap_eq_of_related {γ δ ε : Type} {R : γ → δ → Prop} {cs : List γ} {ds : List δ}
    (h : List.Forall₂ R cs ds) {φ : γ → Option ε} {ψ : δ → Option ε}
    (hφ : ∀ c ∈ cs, ∀ d, R c d → ψ d = φ c) : ds.filterMap ψ = cs.filterMap φ := by
  calc ds.filterMap ψ = (ds.map ψ).filterMap id :=
      (List.filterMap_map (f := ψ) (g := id)).symm
    _ = (cs.map φ).filterMap id := by rw [map_eq_of_related h hφ]
    _ = cs.filterMap φ := List.filterMap_map (f := φ) (g := id)

namespace Graph

open Relation

variable {α β : Type} {g : Graph α} {root : String}

/-! ## Inputs -/

theorem mem_inputs {t : String} {n : Node α} :
    n ∈ g.inputs t ↔ ∃ e ∈ g.edges, e.target = t ∧ g.lookup? e.source = some n := by
  rw [inputs, List.mem_filterMap]
  refine exists_congr fun e => and_congr_right fun _ => ?_
  by_cases h : e.target = t <;> simp [h]

theorem lookup?_of_mem_inputs {t : String} {n : Node α} (h : n ∈ g.inputs t) :
    g.lookup? n.id = some n := by
  obtain ⟨e, -, -, hn⟩ := mem_inputs.mp h
  rw [(mem_of_lookup? hn).2, hn]

theorem mem_inputsOf {t : String} {k : Kind} {n : Node α} :
    n ∈ g.inputsOf t k ↔ n ∈ g.inputs t ∧ n.kind = k := by
  rw [inputsOf, List.mem_filter, beq_iff_eq]

/-- A node with the first id feeds the second. -/
def IsInput (g : Graph α) (s t : String) : Prop := ∃ n ∈ g.inputs t, n.id = s

/-- A path leads from a node with the id to the root, or it is the root's own id. -/
def Upstream (g : Graph α) (root t : String) : Prop := ReflTransGen g.IsInput t root

theorem upstream_self : g.Upstream root root := .refl

theorem Upstream.input {t : String} (h : g.Upstream root t) {n : Node α} (hn : n ∈ g.inputs t) :
    g.Upstream root n.id :=
  .head ⟨n, hn, rfl⟩ h

/-- Except for the root, what is upstream is a node that feeds another that is upstream. -/
theorem Upstream.exists_input {t : String} (h : g.Upstream root t) (ht : t ≠ root) :
    ∃ u, g.Upstream root u ∧ ∃ n ∈ g.inputs u, n.id = t := by
  rcases h.cases_head with rfl | ⟨u, hu, hur⟩
  · exact absurd rfl ht
  · exact ⟨u, hur, hu⟩

/-! ## The search -/

/-- The search goes on from an id: it is the root's or that of a hub. -/
def passes (g : Graph α) (root id : String) : Bool :=
  id == root || ((g.lookup? id).map (·.kind.isHub)).getD false

/-- The ids of the inputs, where the search goes on. -/
def feederSteps (g : Graph α) (root id : String) : List String :=
  if g.passes root id then (g.inputs id).map Node.id else []

/-- The ids that the search goes on to. -/
def nextVisits (g : Graph α) (root id : String) : List String :=
  Search.without root (g.feederSteps root id)

/-- The ids that the search visits, the root's first. -/
def visitOrder (g : Graph α) (root : String) : List String :=
  Search.reach (g.nextVisits root) (Search.without root (g.nodes.map Node.id)) [root]

/-- The id belongs to a found node of the kind. -/
def isFound (g : Graph α) (root : String) (k : Kind) (id : String) : Bool :=
  id != root && g.kindOf id == some k

theorem passes_self (g : Graph α) (root : String) : g.passes root root = true := by simp [passes]

theorem feederSteps_of_passes {t : String} (h : g.passes root t = true) :
    g.feederSteps root t = (g.inputs t).map Node.id := if_pos h

theorem nextVisits_of_not_passes {t : String} (h : g.passes root t = false) :
    g.nextVisits root t = [] := by
  have hsteps : g.feederSteps root t = [] := if_neg (Bool.eq_false_iff.mp h)
  rw [nextVisits, hsteps]
  rfl

theorem passes_of_mem_inputs {t : String} {n : Node α} (hn : n ∈ g.inputs t) (hroot : n.id ≠ root) :
    g.passes root n.id = n.kind.isHub := by
  rw [passes, lookup?_of_mem_inputs hn, beq_eq_false_iff_ne.mpr hroot]
  rfl

/-! ## Collecting -/

/-- Where the search goes on, the new inputs are those that it enters, and what is left pending then
has still not been seen. -/
theorem enter_nextVisits {id : String} {pending seen : List String} (hid : g.passes root id = true)
    (hroot : root ∈ seen) (hpending : ∀ t, t ∈ pending ↔ t ∈ g.nodes.map Node.id ∧ t ∉ seen) :
    (Search.enter (g.nextVisits root id) pending).1 =
      (Search.newcomers Node.id seen (g.inputs id)).map Node.id ∧
    ∀ t, t ∈ (Search.enter (g.nextVisits root id) pending).2 ↔ t ∈ g.nodes.map Node.id ∧
      t ∉ seen ++ (Search.newcomers Node.id seen (g.inputs id)).map Node.id := by
  have hnew : ∀ n ∈ g.inputs id, n.id ∈ pending ↔ n.id ∉ seen := by
    intro n hn
    rw [hpending, and_iff_right (id_mem_of_mem_inputs hn)]
  have hnone : root ∉ pending := fun h => ((hpending root).mp h).2 hroot
  refine ⟨?_, fun t => ?_⟩
  · rw [nextVisits, feederSteps_of_passes hid, Search.enter_without _ hnone,
      Search.enter_map_eq_newcomers hnew]
  · rw [Search.mem_enter_snd, nextVisits, feederSteps_of_passes hid, Search.mem_without, hpending,
      List.mem_append, Search.mem_map_newcomers, not_or]
    constructor
    · rintro ⟨hstep, hid, hseen⟩
      refine ⟨hid, hseen, fun hinput => hstep ⟨hinput.1, ?_⟩⟩
      exact fun e => hseen (e ▸ hroot)
    · rintro ⟨hid, hseen, hinput⟩
      exact ⟨fun hstep => hinput ⟨hstep.1, hseen⟩, hid, hseen⟩

theorem filterMap_lookup?_map_id {t : String} {ns : List (Node α)} (h : ns ⊆ g.inputs t) :
    (ns.map Node.id).filterMap g.lookup? = ns := by
  have hlookup : ∀ n ∈ ns, (g.lookup? ∘ Node.id) n = some n := fun n hn =>
    lookup?_of_mem_inputs (h hn)
  rw [List.filterMap_map, List.filterMap_congr hlookup, List.filterMap_some]

/-- Collecting goes on to the ids that the search visits after those in its queue.  It keeps what it
has seen where the search keeps what is pending, and queues hubs alone, which makes no difference
since the search goes on at no others. -/
theorem collect_eq (g : Graph α) (root : String) (kinds : List Kind) {pending queue : List String} :
    ∀ (seen : List String) (found : List (Node α)), root ∈ seen →
      (∀ t, t ∈ pending ↔ t ∈ g.nodes.map Node.id ∧ t ∉ seen) →
      g.collect kinds seen found (queue.filter (g.passes root)) =
        found ++ (((Search.reach (g.nextVisits root) pending queue).drop queue.length).filterMap
          g.lookup?).filter fun n => kinds.contains n.kind := by
  induction pending, queue using Search.reach.induct (g.nextVisits root) with
  | case1 pending =>
    intro seen found _ _
    simp [Search.reach_nil, collect]
  | case2 pending id queue step ih =>
    intro seen found hroot hpending
    rw [Search.reach_cons, List.length_cons, List.drop_succ_cons]
    by_cases hid : g.passes root id = true
    · obtain ⟨hentered, hleft⟩ := enter_nextVisits hid hroot hpending
      have hinputs := (Search.newcomers_sublist Node.id seen (g.inputs id)).subset
      have hhubs : ((Search.newcomers Node.id seen (g.inputs id)).filter (·.kind.isHub)).map
          Node.id = step.1.filter (g.passes root) := by
        rw [hentered, List.filter_map]
        refine congrArg (List.map Node.id) (List.filter_congr fun n hn => ?_)
        have hnew := (Search.mem_map_newcomers.mp (List.mem_map_of_mem hn)).2
        exact (passes_of_mem_inputs (hinputs hn) fun e => hnew (e ▸ hroot)).symm
      have hqueue : queue ++ step.1 <+: Search.reach (g.nextVisits root) step.2 (queue ++ step.1) :=
        Search.queue_prefix_reach _ _
      obtain ⟨rest, hrest⟩ := hqueue
      have hrun := ih _ (found ++ (Search.newcomers Node.id seen (g.inputs id)).filter
        fun n => kinds.contains n.kind) (List.mem_append_left _ hroot) hleft
      rw [List.filter_cons_of_pos hid, collect, hhubs, ← List.filter_append, hrun, ← hrest,
        List.drop_left, List.append_assoc queue, List.drop_left, List.filterMap_append,
        List.filter_append, List.append_assoc, hentered, filterMap_lookup?_map_id hinputs]
    · have hnone : g.nextVisits root id = [] := nextVisits_of_not_passes (Bool.eq_false_iff.mpr hid)
      have hstep : step = ([], pending) := congrArg (Search.enter · pending) hnone
      rw [hstep, List.append_nil] at ih
      rw [List.filter_cons_of_neg hid, ih seen found hroot hpending, hnone]
      show _ = found ++ (((Search.reach _ pending (queue ++ [])).drop _).filterMap _).filter _
      rw [List.append_nil]

theorem feedersOf_eq (g : Graph α) (root : String) (kinds : List Kind) :
    g.feedersOf root kinds =
      (((g.visitOrder root).drop 1).filterMap g.lookup?).filter fun n => kinds.contains n.kind := by
  have hpending : ∀ t, t ∈ Search.without root (g.nodes.map Node.id) ↔
      t ∈ g.nodes.map Node.id ∧ t ∉ [root] := by
    intro t
    rw [Search.mem_without, List.mem_singleton]
  have hqueue : [root].filter (g.passes root) = [root] := List.filter_cons_of_pos (passes_self g root)
  calc g.feedersOf root kinds = g.collect kinds [root] [] ([root].filter (g.passes root)) := by
        rw [feedersOf, hqueue]
    _ = _ := collect_eq g root kinds [root] [] (List.mem_singleton_self root) hpending

theorem feeders_eq (g : Graph α) (root : String) :
    g.feeders root = ((g.visitOrder root).drop 1).filterMap g.lookup? := by
  rw [feeders, feedersOf_eq]
  refine List.filter_eq_self.mpr fun n _ => ?_
  cases n.kind <;> decide

/-- The nodes of some kinds are those among all that are found. -/
theorem feedersOf_eq_filter (g : Graph α) (root : String) (kinds : List Kind) :
    g.feedersOf root kinds = (g.feeders root).filter fun n => kinds.contains n.kind := by
  rw [feedersOf_eq, feeders_eq]

/-! ## Visits and paths -/

theorem isInput_of_mem_nextVisits {s t : String} (h : s ∈ g.nextVisits root t) :
    g.IsInput s t := by
  have hs := (Search.mem_without.mp h).1
  by_cases hp : g.passes root t = true
  · rw [feederSteps_of_passes hp] at hs
    obtain ⟨n, hn, he⟩ := List.mem_map.mp hs
    exact ⟨n, hn, he⟩
  · rw [nextVisits_of_not_passes (Bool.eq_false_iff.mpr hp)] at h
    exact absurd h List.not_mem_nil

theorem upstream_of_mem_visitOrder {t : String} (h : t ∈ g.visitOrder root) :
    g.Upstream root t := by
  obtain ⟨a, ha, hat⟩ := Search.reached_of_mem_reach h
  rw [List.mem_singleton.mp ha] at hat
  clear h ha
  induction hat with
  | refl => exact .refl
  | tail _ hstep ih => exact .head (isInput_of_mem_nextVisits hstep) ih

theorem upstream_of_mem_feeders {n : Node α} (h : n ∈ g.feeders root) : g.Upstream root n.id := by
  rw [feeders_eq] at h
  obtain ⟨t, ht, hn⟩ := List.mem_filterMap.mp h
  rw [(mem_of_lookup? hn).2]
  exact upstream_of_mem_visitOrder (List.mem_of_mem_drop ht)

/-- The steps into a class of ids are the inputs of a class of nodes, apart from the root. -/
theorem filter_nextVisits {t : String} (ht : g.passes root t = true) {p : String → Bool}
    {c : Node α → Bool} (hp : ∀ n ∈ g.inputs t, n.id ≠ root → p n.id = c n) :
    (g.nextVisits root t).filter p =
      Search.without root (((g.inputs t).filter c).map Node.id) := by
  rw [nextVisits, feederSteps_of_passes ht, Search.without, Search.without, List.filter_filter,
    List.filter_map, List.filter_map, List.filter_filter]
  refine congrArg (List.map Node.id) (List.filter_congr fun n hn => ?_)
  by_cases hroot : n.id = root
  · simp [hroot]
  · simp [hroot, hp n hn hroot]

theorem isFound_of_mem_inputs {t : String} {n : Node α} (hn : n ∈ g.inputs t)
    (hroot : n.id ≠ root) (k : Kind) : g.isFound root k n.id = (n.kind == k) := by
  rw [isFound, kindOf, lookup?_of_mem_inputs hn, bne_iff_ne.mpr hroot]
  exact Bool.eq_iff_iff.mpr (by simp)

/-- The root is visited first and not again. -/
theorem exists_visitOrder_eq (g : Graph α) (root : String) :
    ∃ rest, g.visitOrder root = root :: rest ∧ root ∉ rest := by
  refine ⟨_, Search.reach_cons root _ [], fun h => ?_⟩
  have hpending : root ∈ Search.without root (g.nodes.map Node.id) := by
    rcases Search.mem_of_mem_reach h with hq | hp
    · exact (Search.mem_enter_fst.mp hq).2
    · exact (Search.mem_enter_snd.mp hp).2
  exact (Search.mem_without.mp hpending).2 rfl

/-- The found nodes of a kind, in the order of the visits. -/
theorem feeders_filter_kind (g : Graph α) (root : String) (k : Kind) :
    (g.feeders root).filter (·.kind == k) =
      ((g.visitOrder root).filter (g.isFound root k)).filterMap g.lookup? := by
  obtain ⟨rest, horder, hrest⟩ := exists_visitOrder_eq g root
  have hroot : ¬ g.isFound root k root = true := by simp [isFound]
  rw [feeders_eq, horder, List.filter_cons_of_neg hroot, List.drop_one, List.tail_cons,
    List.filter_filterMap, List.filterMap_filter]
  refine List.filterMap_congr fun t ht => ?_
  have hne : t ≠ root := fun e => hrest (e ▸ ht)
  cases hl : g.lookup? t with
  | none => simp [isFound, kindOf, hl]
  | some n => by_cases hk : n.kind = k <;> simp [isFound, kindOf, hl, hne, hk, Option.filter]

theorem passes_of_isFound {k : Kind} {t : String} (h : g.isFound root k t = true) :
    g.passes root t = k.isHub := by
  obtain ⟨hne, hk⟩ := Bool.and_eq_true_iff.mp h
  obtain ⟨n, hn, rfl⟩ := Option.map_eq_some_iff.mp (beq_iff_eq.mp hk)
  rw [passes, hn, beq_eq_false_iff_ne.mpr (bne_iff_ne.mp hne)]
  rfl

theorem filter_passes_filter_isFound {k : Kind} (hk : k.isHub = true) (ts : List String) :
    (ts.filter (g.passes root)).filter (g.isFound root k) = ts.filter (g.isFound root k) := by
  rw [List.filter_filter]
  refine List.filter_congr fun t _ => ?_
  cases hf : g.isFound root k t with
  | false => rfl
  | true => rw [passes_of_isFound hf, hk]; rfl

/-- The found nodes of a kind that is no hub come in the order in which the hubs lead to them. -/
theorem visitOrder_filter_isFound_eq {k : Kind} (hk : k.isHub = false) :
    (g.visitOrder root).filter (g.isFound root k) =
      (Search.enter (((g.visitOrder root).filter (g.passes root)).flatMap
        fun t => (g.nextVisits root t).filter (g.isFound root k))
        (Search.without root (g.nodes.map Node.id))).1 := by
  have hroot : ¬ g.isFound root k root = true := by simp [isFound]
  have hleaves := Search.reach_filter_leaves (p := g.passes root) (q := g.isFound root k)
    (fun _ => nextVisits_of_not_passes) (fun t ht => (passes_of_isFound ht).trans hk)
    (Search.without root (g.nodes.map Node.id)) [root]
  rwa [List.filter_cons_of_neg hroot, List.filter_nil, List.nil_append] at hleaves

/-! ## Two graphs -/

/-- Upstream of the root, the second graph is the first under other ids: each node has related
inputs, the hubs in their order and every other kind in its order. -/
structure Corresponds (R : Node α → Node β → Prop) (f : String → String) (root : String)
    (g : Graph α) (g' : Graph β) : Prop where
  id_eq : ∀ {n n'}, R n n' → n'.id = f n.id
  kind_eq : ∀ {n n'}, R n n' → n'.kind = n.kind
  injOn : Set.InjOn f {t | g.Upstream root t}
  hubs : ∀ t, g.Upstream root t →
    List.Forall₂ R ((g.inputs t).filter (·.kind.isHub)) ((g'.inputs (f t)).filter (·.kind.isHub))
  others : ∀ t, g.Upstream root t → ∀ k : Kind, k.isHub = false →
    List.Forall₂ R (g.inputsOf t k) (g'.inputsOf (f t) k)

namespace Corresponds

variable {R : Node α → Node β → Prop} {f : String → String} {g' : Graph β}
  (h : Corresponds R f root g g')
include h

theorem filter {ns : List (Node α)} {ns' : List (Node β)} (hns : List.Forall₂ R ns ns')
    (k : Kind) : List.Forall₂ R (ns.filter (·.kind == k)) (ns'.filter (·.kind == k)) :=
  List.rel_filter (fun n n' hn => iff_of_eq (by simp only [h.kind_eq hn])) hns

theorem inputsOf {t : String} (ht : g.Upstream root t) (k : Kind) :
    List.Forall₂ R (g.inputsOf t k) (g'.inputsOf (f t) k) := by
  by_cases hk : k.isHub = true
  · have hsub : ∀ {γ : Type} (ns : List (Node γ)),
        (ns.filter (·.kind.isHub)).filter (·.kind == k) = ns.filter (·.kind == k) := by
      intro γ ns
      rw [List.filter_filter]
      refine List.filter_congr fun n _ => ?_
      by_cases hn : n.kind = k <;> simp [hn, hk]
    have hrel := h.filter (h.hubs t ht) k
    rwa [hsub, hsub] at hrel
  · exact h.others t ht k (Bool.eq_false_iff.mpr hk)

theorem exists_input {t : String} (ht : g.Upstream root t) {n : Node α} (hn : n ∈ g.inputs t) :
    ∃ n' ∈ g'.inputs (f t), R n n' := by
  have hmem : n ∈ g.inputsOf t n.kind := mem_inputsOf.mpr ⟨hn, rfl⟩
  obtain ⟨n', hn', hr⟩ := exists_related_of_mem (h.inputsOf ht n.kind) hmem
  exact ⟨n', (mem_inputsOf.mp hn').1, hr⟩

/-- Each node upstream has its counterpart under the new id. -/
theorem exists_lookup {t : String} (ht : g.Upstream root t) (hroot : t ≠ root) :
    ∃ n n', g.lookup? t = some n ∧ g'.lookup? (f t) = some n' ∧ R n n' := by
  obtain ⟨u, hu, n, hn, rfl⟩ := ht.exists_input hroot
  obtain ⟨n', hn', hr⟩ := h.exists_input hu hn
  exact ⟨n, n', lookup?_of_mem_inputs hn, h.id_eq hr ▸ lookup?_of_mem_inputs hn', hr⟩

theorem map_id_eq {ns : List (Node α)} {ns' : List (Node β)} (hns : List.Forall₂ R ns ns') :
    ns'.map Node.id = (ns.map Node.id).map f := by
  rw [List.map_map]
  exact map_eq_of_related hns fun _ _ _ hr => h.id_eq hr

theorem beq_root_eq {t : String} (ht : g.Upstream root t) : (f t == f root) = (t == root) := by
  rw [Bool.eq_iff_iff, beq_iff_eq, beq_iff_eq]
  exact h.injOn.eq_iff ht upstream_self

theorem passes_eq {t : String} (ht : g.Upstream root t) :
    g'.passes (f root) (f t) = g.passes root t := by
  rw [passes, passes, h.beq_root_eq ht]
  by_cases hroot : t = root
  · simp [hroot]
  · obtain ⟨n, n', hn, hn', hr⟩ := h.exists_lookup ht hroot
    simp only [hn, hn', Option.map_some, h.kind_eq hr]

theorem isFound_eq {t : String} (ht : g.Upstream root t) (k : Kind) :
    g'.isFound (f root) k (f t) = g.isFound root k t := by
  rw [isFound, isFound, bne, bne, h.beq_root_eq ht]
  by_cases hroot : t = root
  · simp [hroot]
  · obtain ⟨n, n', hn, hn', hr⟩ := h.exists_lookup ht hroot
    simp only [kindOf, hn, hn', Option.map_some, h.kind_eq hr]

/-- What the search may enter is the same, since each node upstream has its counterpart. -/
theorem mem_pending_iff {t : String} (ht : g.Upstream root t) :
    f t ∈ Search.without (f root) (g'.nodes.map Node.id) ↔
      t ∈ Search.without root (g.nodes.map Node.id) := by
  rw [Search.mem_without, Search.mem_without]
  by_cases hroot : t = root
  · simp [hroot]
  · obtain ⟨n, n', hn, hn', -⟩ := h.exists_lookup ht hroot
    have hmem : t ∈ g.nodes.map Node.id := List.mem_map.mpr ⟨n, mem_of_lookup? hn⟩
    have hmem' : f t ∈ g'.nodes.map Node.id := List.mem_map.mpr ⟨n', mem_of_lookup? hn'⟩
    have hne : f t ≠ f root := fun e => hroot (h.injOn ht upstream_self e)
    exact iff_of_true ⟨hmem', hne⟩ ⟨hmem, hroot⟩

/-- Related inputs of a class give the steps into the class under the new ids. -/
theorem filter_nextVisits_eq {t : String} (ht : g.Upstream root t)
    {c : Node α → Bool} {c' : Node β → Bool}
    (hrel : List.Forall₂ R ((g.inputs t).filter c) ((g'.inputs (f t)).filter c'))
    {p p' : String → Bool} (hp : ∀ n ∈ g.inputs t, n.id ≠ root → p n.id = c n)
    (hp' : ∀ n ∈ g'.inputs (f t), n.id ≠ f root → p' n.id = c' n) :
    (g'.nextVisits (f root) (f t)).filter p' = ((g.nextVisits root t).filter p).map f := by
  by_cases hpass : g.passes root t = true
  · have hids : ∀ s ∈ ((g.inputs t).filter c).map Node.id, g.Upstream root s := by
      intro s hs
      obtain ⟨n, hn, rfl⟩ := List.mem_map.mp hs
      exact ht.input (List.mem_filter.mp hn).1
    have hpass' : g'.passes (f root) (f t) = true := by rw [h.passes_eq ht, hpass]
    rw [filter_nextVisits hpass hp, filter_nextVisits hpass' hp', h.map_id_eq hrel,
      Search.without_map h.injOn upstream_self hids]
  · have hpass' : g'.passes (f root) (f t) = false := by
      rw [h.passes_eq ht]
      exact Bool.eq_false_iff.mpr hpass
    rw [nextVisits_of_not_passes (Bool.eq_false_iff.mpr hpass), nextVisits_of_not_passes hpass']
    rfl

/-- The search goes on from the same nodes in the same order. -/
theorem visitOrder_filter_passes :
    (g'.visitOrder (f root)).filter (g'.passes (f root)) =
      ((g.visitOrder root).filter (g.passes root)).map f := by
  rw [visitOrder, visitOrder,
    Search.reach_filter_passing fun _ => nextVisits_of_not_passes,
    Search.reach_filter_passing fun _ => nextVisits_of_not_passes,
    List.filter_cons_of_pos (passes_self g root), List.filter_cons_of_pos (passes_self g' (f root)),
    List.filter_nil, List.filter_nil]
  have hroot : ∀ t ∈ [root], g.Upstream root t := by
    intro t ht
    rw [List.mem_singleton.mp ht]
    exact upstream_self
  refine Search.reach_map h.injOn ?_ ?_ hroot fun t ht => h.mem_pending_iff ht
  · intro t ht s hs
    exact .head (isInput_of_mem_nextVisits (List.mem_filter.mp hs).1) ht
  · intro t ht
    exact h.filter_nextVisits_eq ht (h.hubs t ht) (fun _ => passes_of_mem_inputs)
      fun _ => passes_of_mem_inputs

/-- The found nodes of each kind are visited in the same order. -/
theorem visitOrder_filter_isFound (k : Kind) :
    (g'.visitOrder (f root)).filter (g'.isFound (f root) k) =
      ((g.visitOrder root).filter (g.isFound root k)).map f := by
  -- A hub goes on itself, so it keeps the order of the search; the others come as hubs lead to them.
  by_cases hk : k.isHub = true
  · rw [← filter_passes_filter_isFound hk (g.visitOrder root),
      ← filter_passes_filter_isFound hk (g'.visitOrder (f root)), h.visitOrder_filter_passes,
      List.filter_map]
    refine congrArg (List.map f) (List.filter_congr fun t ht => ?_)
    exact h.isFound_eq (upstream_of_mem_visitOrder (List.mem_filter.mp ht).1) k
  · have hleaf : k.isHub = false := Bool.eq_false_iff.mpr hk
    rw [visitOrder_filter_isFound_eq hleaf, visitOrder_filter_isFound_eq hleaf,
      h.visitOrder_filter_passes, List.flatMap_map]
    have hsteps : ∀ t ∈ (g.visitOrder root).filter (g.passes root),
        (g'.nextVisits (f root) (f t)).filter (g'.isFound (f root) k) =
          ((g.nextVisits root t).filter (g.isFound root k)).map f := by
      intro t ht
      have hup := upstream_of_mem_visitOrder (List.mem_filter.mp ht).1
      exact h.filter_nextVisits_eq hup (h.others t hup k hleaf)
        (fun n hn hne => isFound_of_mem_inputs hn hne k)
        fun n hn hne => isFound_of_mem_inputs hn hne k
    rw [List.flatMap_congr hsteps, ← List.map_flatMap]
    refine Search.enter_map h.injOn ?_ fun t ht => h.mem_pending_iff ht
    intro s hs
    obtain ⟨t, ht, hs⟩ := List.mem_flatMap.mp hs
    exact .head (isInput_of_mem_nextVisits (List.mem_filter.mp hs).1)
      (upstream_of_mem_visitOrder (List.mem_filter.mp ht).1)

theorem filterMap_lookup {ts : List String} (hts : ∀ t ∈ ts, g.Upstream root t ∧ t ≠ root) :
    List.Forall₂ R (ts.filterMap g.lookup?) ((ts.map f).filterMap g'.lookup?) := by
  induction ts with
  | nil => exact .nil
  | cons t ts ih =>
    obtain ⟨ht, hroot⟩ := hts t List.mem_cons_self
    obtain ⟨n, n', hn, hn', hr⟩ := h.exists_lookup ht hroot
    rw [List.map_cons, List.filterMap_cons_some hn, List.filterMap_cons_some hn']
    exact .cons hr (ih fun s hs => hts s (List.mem_cons_of_mem t hs))

/-- For the root, the same nodes of each kind are found in the same order. -/
theorem feeders (k : Kind) :
    List.Forall₂ R ((g.feeders root).filter (·.kind == k))
      ((g'.feeders (f root)).filter (·.kind == k)) := by
  rw [feeders_filter_kind, feeders_filter_kind, h.visitOrder_filter_isFound]
  refine h.filterMap_lookup fun t ht => ?_
  obtain ⟨ht, hfound⟩ := List.mem_filter.mp ht
  exact ⟨upstream_of_mem_visitOrder ht, bne_iff_ne.mp (Bool.and_eq_true_iff.mp hfound).1⟩

end Corresponds

end Graph
end PromptCanvas
