import Mathlib.Data.List.Nodup
import PromptCanvas.Proofs.Prompt.Counterpart

/-!
# What a prompt does not depend on

A prompt depends on how a graph is wired upstream of its root and on what the nodes there hold.  It
does not depend on how the graph is named and laid out (`compileFrom_of_redrawn`), on how the edges
of different kinds come between each other (`compileFrom_of_interleaved`), or on anything that does
not lead to the root (`compileFrom_of_sameUpstream`).  Each is a way for two graphs to correspond
upstream of their roots.
-/

namespace PromptCanvas
namespace Graph

open Relation

variable {α β : Type} {f : String → String} {root : String} {g : Graph α} {g' : Graph β}

theorem inputs_eq (g : Graph α) (t : String) :
    g.inputs t = (g.edges.filter (·.target == t)).filterMap fun e => g.lookup? e.source := by
  rw [inputs, List.filterMap_filter]

theorem rel_of_lookups {R : Node α → Node β → Prop} {o : Option (Node α)} {o' : Option (Node β)}
    (h : ∀ n, o = some n → ∃ n', o' = some n' ∧ R n n')
    (h' : ∀ n', o' = some n' → ∃ n, o = some n) : Option.Rel R o o' := by
  cases o with
  | none =>
    cases o' with
    | none => exact .none
    | some n' =>
      obtain ⟨n, hn⟩ := h' n' rfl
      cases hn
  | some n =>
    obtain ⟨n', hn', hr⟩ := h n rfl
    rw [hn']
    exact .some hr

/-- Graphs correspond if all inputs upstream do, in their order. -/
theorem corresponds_of_inputs (hinj : Set.InjOn f {t | g.Upstream root t})
    (hinputs : ∀ t, g.Upstream root t →
      List.Forall₂ (Node.Counterpart f) (g.inputs t) (g'.inputs (f t))) :
    Corresponds (Node.Counterpart f) f root g g' where
  id_eq := Node.Counterpart.id_eq
  kind_eq := Node.Counterpart.kind_eq
  injOn := hinj
  hubs t ht := List.rel_filter (fun n n' hn => iff_of_eq (by simp only [hn.kind_eq])) (hinputs t ht)
  others t ht k _ :=
    List.rel_filter (fun n n' hn => iff_of_eq (by simp only [hn.kind_eq])) (hinputs t ht)

/-! ## Names and places -/

/-- The ids of the nodes and of what the edges join. -/
def names (g : Graph α) : List String :=
  g.nodes.map Node.id ++ g.edges.flatMap fun e => [e.source, e.target]

theorem id_mem_names {n : Node α} (hn : n ∈ g.nodes) : n.id ∈ g.names :=
  List.mem_append_left _ (List.mem_map_of_mem hn)

theorem source_mem_names {e : Edge} (he : e ∈ g.edges) : e.source ∈ g.names :=
  List.mem_append_right _ (List.mem_flatMap.mpr ⟨e, he, by simp⟩)

theorem target_mem_names {e : Edge} (he : e ∈ g.edges) : e.target ∈ g.names :=
  List.mem_append_right _ (List.mem_flatMap.mpr ⟨e, he, by simp⟩)

/-- What is upstream has a name in the graph. -/
theorem Upstream.mem_names {t : String} (h : g.Upstream root t) : t ∈ root :: g.names := by
  by_cases ht : t = root
  · exact ht ▸ List.mem_cons_self
  · obtain ⟨u, -, n, hn, rfl⟩ := h.exists_input ht
    exact List.mem_cons_of_mem root (id_mem_names (mem_of_lookup? (lookup?_of_mem_inputs hn)).1)

/-- The second graph is the first with other names: the nodes may stand in any order and anywhere,
and the edges, in their order, join the renamed nodes. -/
structure Redrawn (f : String → String) (g : Graph α) (g' : Graph β) : Prop where
  nodes : ∃ ns, ns.Perm g.nodes ∧ List.Forall₂ (Node.Counterpart f) ns g'.nodes
  edges : List.Forall₂ (fun e e' => e'.source = f e.source ∧ e'.target = f e.target)
    g.edges g'.edges

namespace Redrawn

variable (h : Redrawn f g g') (hids : (g.nodes.map Node.id).Nodup)
  (hf : Set.InjOn f {s | s ∈ root :: g.names})
include h hids hf

theorem nodup_ids : (g'.nodes.map Node.id).Nodup := by
  obtain ⟨ns, hperm, hns⟩ := h.nodes
  have hmap : g'.nodes.map Node.id = (ns.map Node.id).map f := by
    rw [List.map_map]
    exact map_eq_of_related hns fun _ _ _ hr => hr.id_eq
  have hnodup : (ns.map Node.id).Nodup := (hperm.map Node.id).nodup_iff.mpr hids
  have hname : ∀ s ∈ ns.map Node.id, s ∈ root :: g.names := by
    intro s hs
    obtain ⟨n, hn, rfl⟩ := List.mem_map.mp hs
    exact List.mem_cons_of_mem root (id_mem_names (hperm.mem_iff.mp hn))
  rw [hmap]
  exact hnodup.map_on fun s hs t ht he => hf (hname s hs) (hname t ht) he

/-- A name is looked up alike in both graphs. -/
theorem lookup? {s : String} (hs : s ∈ root :: g.names) :
    Option.Rel (Node.Counterpart f) (g.lookup? s) (g'.lookup? (f s)) := by
  have hids' := h.nodup_ids hids hf
  obtain ⟨ns, hperm, hns⟩ := h.nodes
  refine rel_of_lookups (fun n hn => ?_) fun n' hn' => ?_
  · obtain ⟨hmem, rfl⟩ := mem_of_lookup? hn
    obtain ⟨n', hmem', hr⟩ := exists_related_of_mem hns (hperm.mem_iff.mpr hmem)
    exact ⟨n', (lookup?_eq_some_iff hids').mpr ⟨hmem', hr.id_eq⟩, hr⟩
  · obtain ⟨hmem', hid⟩ := mem_of_lookup? hn'
    have hflip : List.Forall₂ (flip (Node.Counterpart f)) g'.nodes ns := List.Forall₂.flip hns
    obtain ⟨n, hmem, hr⟩ := exists_related_of_mem hflip hmem'
    have hn : n ∈ g.nodes := hperm.mem_iff.mp hmem
    have hname : n.id ∈ root :: g.names := List.mem_cons_of_mem root (id_mem_names hn)
    exact ⟨n, (lookup?_eq_some_iff hids).mpr ⟨hn, hf hname hs (hr.id_eq.symm.trans hid)⟩⟩

theorem inputs {t : String} (ht : t ∈ root :: g.names) :
    List.Forall₂ (Node.Counterpart f) (g.inputs t) (g'.inputs (f t)) := by
  rw [Graph.inputs, Graph.inputs]
  have hedges : List.Forall₂ (fun e e' => e ∈ g.edges ∧ e'.source = f e.source ∧
      e'.target = f e.target) g.edges g'.edges :=
    (List.forall₂_and_left _ _).mpr ⟨fun _ he => he, h.edges⟩
  refine List.rel_filterMap ?_ hedges
  rintro e e' ⟨he, hsource, htarget⟩
  have hname : ∀ {s}, s ∈ g.names → s ∈ root :: g.names := List.mem_cons_of_mem root
  by_cases het : e.target = t
  · have het' : e'.target = f t := htarget.trans (congrArg f het)
    simp only [het, het', beq_self_eq_true, if_true, hsource]
    exact h.lookup? hids hf (hname (source_mem_names he))
  · have het' : e'.target ≠ f t := fun e =>
      het (hf (hname (target_mem_names he)) ht (htarget.symm.trans e))
    simp only [beq_eq_false_iff_ne.mpr het, beq_eq_false_iff_ne.mpr het', Bool.false_eq_true,
      if_false]
    exact .none

end Redrawn

/-- A graph that is drawn anew has the same prompt, images and aspect ratio: ids, the order of the
nodes, edge ids, places, folding and parents do not matter. -/
theorem compileFrom_of_redrawn (hids : (g.nodes.map Node.id).Nodup)
    (hf : Set.InjOn f {s | s ∈ root :: g.names}) (h : Redrawn f g g') (library : SubjectLibrary)
    (defaultRatio : String) :
    g'.compileFrom library defaultRatio (f root) = g.compileFrom library defaultRatio root := by
  have hinj : Set.InjOn f {t | g.Upstream root t} := hf.mono fun t ht => ht.mem_names
  exact (corresponds_of_inputs hinj fun t ht => h.inputs hids hf ht.mem_names).compileFrom_eq
    library defaultRatio

/-- Two subjects, one of which feeds the output both directly and through a composition; a style
that the composition feeds and is fed by; a light with a modifier. -/
def studio : Graph Int where
  nodes := [
    ⟨"out", .output, (none, ()), ⟨0, 0⟩, false, none⟩,
    ⟨"ann", .subjectRoot, (none, none, none, some "old", none, none, .fullCharacter, none, ()),
      ⟨1, 0⟩, true, none⟩,
    ⟨"ben", .subjectRoot, (none, some "ben", some .man, none, none, none, .faceOnly, none, ()),
      ⟨2, 0⟩, false, none⟩,
    ⟨"look", .style, (none, some "film still", none, ()), ⟨3, 0⟩, false, none⟩,
    ⟨"frame", .composition, (none, some "noir", none, some .wide, none, ()), ⟨4, 0⟩, false, none⟩,
    ⟨"face", .reference, (none, some ⟨"QQ==", "image/png"⟩, ()), ⟨5, 0⟩, false, none⟩,
    ⟨"mood", .reference, (none, some ⟨"Qg==", "image/gif"⟩, ()), ⟨6, 0⟩, false, none⟩,
    ⟨"light", .lightSource, (none, some "candle", none, none, none, false, ()), ⟨7, 0⟩, false,
      none⟩,
    ⟨"gauze", .lightModifier, (none, some "gauze", ()), ⟨8, 0⟩, false, none⟩,
    ⟨"note", .comment, (none, some "later", ()), ⟨9, 0⟩, false, none⟩]
  edges := [
    ⟨"1", "ann", "out"⟩, ⟨"2", "look", "out"⟩, ⟨"3", "frame", "look"⟩, ⟨"4", "ben", "frame"⟩,
    ⟨"5", "look", "frame"⟩, ⟨"6", "ann", "frame"⟩, ⟨"7", "mood", "look"⟩, ⟨"8", "face", "ann"⟩,
    ⟨"9", "light", "out"⟩, ⟨"10", "gauze", "light"⟩, ⟨"11", "note", "out"⟩,
    ⟨"12", "gone", "ann"⟩]

/-- The subjects trade their names, and the output gets another. -/
def tradeNames (s : String) : String :=
  if s = "ann" then "ben" else if s = "ben" then "ann" else if s = "out" then "end" else s

def studioRedrawn : Graph Int where
  nodes := studio.nodes.reverse.map fun n =>
    ⟨tradeNames n.id, n.kind, n.attributes, ⟨n.position.y, -n.position.x⟩, !n.collapsed,
      some "pile"⟩
  edges := studio.edges.map fun e => ⟨"edge-" ++ e.id, tradeNames e.source, tradeNames e.target⟩

theorem compileFrom_studioRedrawn :
    (studio.nodes.map Node.id).Nodup ∧
    Set.InjOn tradeNames {s | s ∈ "out" :: studio.names} ∧
    Redrawn tradeNames studio studioRedrawn ∧
    studioRedrawn.compileFrom [] "1:1" "end" = studio.compileFrom [] "1:1" "out" := by
  have hids : (studio.nodes.map Node.id).Nodup := by decide +kernel
  have hinj : ∀ s ∈ "out" :: studio.names, ∀ t ∈ "out" :: studio.names,
      tradeNames s = tradeNames t → s = t := by decide +kernel
  have hf : Set.InjOn tradeNames {s | s ∈ "out" :: studio.names} := fun s hs t ht => hinj s hs t ht
  have hredrawn : Redrawn tradeNames studio studioRedrawn := {
    nodes := ⟨studio.nodes.reverse, studio.nodes.reverse_perm,
      List.forall₂_map_right_iff.mpr (List.forall₂_same.mpr fun n _ => ⟨rfl, rfl, fun _ => rfl⟩)⟩
    edges := List.forall₂_map_right_iff.mpr (List.forall₂_same.mpr fun _ _ => ⟨rfl, rfl⟩) }
  exact ⟨hids, hf, hredrawn, compileFrom_of_redrawn hids hf hredrawn [] "1:1"⟩

/-! ## The order of the edges -/

/-- The second graph has the edges of the first in another order, in which the inputs of every node,
and those of the root, keep their order among the hubs and within each other kind. -/
structure Interleaved (root : String) (g g' : Graph α) : Prop where
  nodes : g'.nodes = g.nodes
  edges : g'.edges.Perm g.edges
  hubs : ∀ t ∈ root :: g.nodes.map Node.id,
    (g'.inputs t).filter (·.kind.isHub) = (g.inputs t).filter (·.kind.isHub)
  others : ∀ t ∈ root :: g.nodes.map Node.id, ∀ k : Kind, k.isHub = false →
    g'.inputsOf t k = g.inputsOf t k

theorem Upstream.mem_ids {t : String} (h : g.Upstream root t) :
    t ∈ root :: g.nodes.map Node.id := by
  by_cases ht : t = root
  · exact ht ▸ List.mem_cons_self
  · obtain ⟨u, -, n, hn, rfl⟩ := h.exists_input ht
    have hmem := (mem_of_lookup? (lookup?_of_mem_inputs hn)).1
    exact List.mem_cons_of_mem root (List.mem_map_of_mem hmem)

theorem forall₂_counterpart_id {ns ns' : List (Node α)} (h : ns' = ns) :
    List.Forall₂ (Node.Counterpart id) ns ns' := by
  subst h
  exact List.forall₂_same.mpr fun n _ => ⟨rfl, rfl, fun _ => rfl⟩

/-- How edges of different kinds come between each other does not matter for the prompt, the images
and the aspect ratio. -/
theorem compileFrom_of_interleaved {g' : Graph α} (h : Interleaved root g g')
    (library : SubjectLibrary) (defaultRatio : String) :
    g'.compileFrom library defaultRatio root = g.compileFrom library defaultRatio root := by
  have hcorresponds : Corresponds (Node.Counterpart id) id root g g' := {
    id_eq := Node.Counterpart.id_eq
    kind_eq := Node.Counterpart.kind_eq
    injOn := Set.injOn_id _
    hubs := fun t ht => forall₂_counterpart_id (h.hubs t ht.mem_ids)
    others := fun t ht k hk => forall₂_counterpart_id (h.others t ht.mem_ids k hk) }
  exact hcorresponds.compileFrom_eq library defaultRatio

def studioInterleaved : Graph Int where
  nodes := studio.nodes
  edges := [
    ⟨"9", "light", "out"⟩, ⟨"7", "mood", "look"⟩, ⟨"2", "look", "out"⟩, ⟨"12", "gone", "ann"⟩,
    ⟨"1", "ann", "out"⟩, ⟨"4", "ben", "frame"⟩, ⟨"3", "frame", "look"⟩, ⟨"6", "ann", "frame"⟩,
    ⟨"5", "look", "frame"⟩, ⟨"10", "gauze", "light"⟩, ⟨"8", "face", "ann"⟩, ⟨"11", "note", "out"⟩]

theorem compileFrom_studioInterleaved :
    Interleaved "out" studio studioInterleaved ∧
    studioInterleaved.compileFrom [] "1:1" "out" = studio.compileFrom [] "1:1" "out" := by
  have h : Interleaved "out" studio studioInterleaved := {
    nodes := rfl
    edges := by decide +kernel
    hubs := by
      intro t ht
      simp only [studio, List.map_cons, List.map_nil, List.mem_cons, List.not_mem_nil,
        or_false] at ht
      rcases ht with rfl | rfl | rfl | rfl | rfl | rfl | rfl | rfl | rfl | rfl | rfl <;> rfl
    others := by
      intro t ht k hk
      simp only [studio, List.map_cons, List.map_nil, List.mem_cons, List.not_mem_nil,
        or_false] at ht
      rcases ht with rfl | rfl | rfl | rfl | rfl | rfl | rfl | rfl | rfl | rfl | rfl <;>
        cases k <;> rfl }
  exact ⟨h, compileFrom_of_interleaved h [] "1:1"⟩

/-! ## What does not lead to the root -/

/-- The graphs differ only in what does not reach the prompt of the root.  A node from which a path
leads to the root is in both, with the same attributes unless its kind is silent; an edge into such
a node or into the root is in both, in the same order. -/
structure SameUpstream (root : String) (g g' : Graph α) : Prop where
  kept : ∀ n ∈ g.nodes, TransGen g.IsInput n.id root → ∃ n' ∈ g'.nodes, n.Counterpart id n'
  added : ∀ n' ∈ g'.nodes, TransGen g'.IsInput n'.id root → ∃ n ∈ g.nodes, n.Counterpart id n'
  edges : ∀ t, t = root ∨ TransGen g.IsInput t root →
    g'.edges.filter (·.target == t) = g.edges.filter (·.target == t)

namespace SameUpstream

variable {g g' : Graph α} (h : SameUpstream root g g') (hids : (g.nodes.map Node.id).Nodup)
  (hids' : (g'.nodes.map Node.id).Nodup)
include h hids hids'

/-- What is upstream in both graphs has the same inputs in both. -/
theorem inputs {t : String} (ht : g.Upstream root t) (ht' : g'.Upstream root t) :
    List.Forall₂ (Node.Counterpart id) (g.inputs t) (g'.inputs t) := by
  have hedges := h.edges t ((reflTransGen_iff_eq_or_transGen.mp ht).imp_left Eq.symm)
  have hsame : List.Forall₂ (fun e e' => e' = e ∧ e ∈ g.edges.filter (·.target == t))
      (g.edges.filter (·.target == t)) (g.edges.filter (·.target == t)) :=
    List.forall₂_same.mpr fun _ he => ⟨rfl, he⟩
  rw [inputs_eq, inputs_eq, hedges]
  refine List.rel_filterMap ?_ hsame
  rintro _ e ⟨rfl, he⟩
  have he' : e ∈ g'.edges.filter (·.target == t) := hedges ▸ he
  obtain ⟨he, htarget⟩ := List.mem_filter.mp he
  refine rel_of_lookups (fun n hn => ?_) fun n' hn' => ?_
  · have hinput : n ∈ g.inputs t := mem_inputs.mpr ⟨e, he, eq_of_beq htarget, hn⟩
    obtain ⟨hmem, hid⟩ := mem_of_lookup? hn
    obtain ⟨n', hmem', hr⟩ := h.kept n hmem (TransGen.head' ⟨n, hinput, rfl⟩ ht)
    exact ⟨n', (lookup?_eq_some_iff hids').mpr ⟨hmem', hr.id_eq.trans hid⟩, hr⟩
  · have hinput' : n' ∈ g'.inputs t :=
      mem_inputs.mpr ⟨e, (List.mem_filter.mp he').1, eq_of_beq htarget, hn'⟩
    obtain ⟨hmem', hid'⟩ := mem_of_lookup? hn'
    obtain ⟨n, hmem, hr⟩ := h.added n' hmem' (TransGen.head' ⟨n', hinput', rfl⟩ ht')
    exact ⟨n, (lookup?_eq_some_iff hids).mpr ⟨hmem, hr.id_eq.symm.trans hid'⟩⟩

theorem upstream {t : String} (ht : g.Upstream root t) : g'.Upstream root t := by
  -- Along the path from the root back: what is upstream in both graphs has its inputs in both.
  induction ht using ReflTransGen.head_induction_on with
  | refl => exact .refl
  | head hinput ht ih =>
    obtain ⟨n, hn, rfl⟩ := hinput
    obtain ⟨n', hn', hr⟩ := exists_related_of_mem (h.inputs hids hids' ht ih) hn
    exact .head ⟨n', hn', hr.id_eq⟩ ih

end SameUpstream

/-- The prompt, the images and the aspect ratio of a root depend on what leads to it alone: nodes
from which no path leads there may be changed, added and removed, and so may edges into what neither
leads there nor is the root, and silent nodes may hold anything wherever they stand. -/
theorem compileFrom_of_sameUpstream {g g' : Graph α} (hids : (g.nodes.map Node.id).Nodup)
    (hids' : (g'.nodes.map Node.id).Nodup) (h : SameUpstream root g g') (library : SubjectLibrary)
    (defaultRatio : String) :
    g'.compileFrom library defaultRatio root = g.compileFrom library defaultRatio root := by
  have hinputs : ∀ t, g.Upstream root t →
      List.Forall₂ (Node.Counterpart id) (g.inputs t) (g'.inputs (id t)) := fun t ht =>
    h.inputs hids hids' ht (h.upstream hids hids' ht)
  exact (corresponds_of_inputs (Set.injOn_id _) hinputs).compileFrom_eq library defaultRatio

/-- A lens that nothing is done with, fed by a light. -/
def studioCluttered : Graph Int where
  nodes := ⟨"lens", .lens, (none, some "old", none, none, ()), ⟨0, 0⟩, false, none⟩ :: studio.nodes
  edges := ⟨"13", "light", "lens"⟩ :: studio.edges

/-- Other words in comments and outputs. -/
def reword : Node Int → Node Int
  | ⟨id, .comment, _, p, c, q⟩ => ⟨id, .comment, (some "x", some "never mind", ()), p, c, q⟩
  | ⟨id, .output, _, p, c, q⟩ => ⟨id, .output, (some "print", ()), p, c, q⟩
  | n => n

theorem counterpart_reword (n : Node Int) : n.Counterpart id (reword n) := by
  obtain ⟨i, kind, a, p, c, q⟩ := n
  cases kind
  case comment => exact ⟨rfl, rfl, fun h => Bool.noConfusion h⟩
  case output => exact ⟨rfl, rfl, fun h => Bool.noConfusion h⟩
  all_goals exact ⟨rfl, rfl, fun _ => rfl⟩

/-- A film in place of the lens, fed by a subject and by the output, and other words in the silent
nodes. -/
def studioTidied : Graph Int where
  nodes := ⟨"film", .film, (none, some "fast", none, ()), ⟨0, 0⟩, false, none⟩ ::
    studio.nodes.map reword
  edges := studio.edges ++ [⟨"14", "ann", "film"⟩, ⟨"15", "out", "film"⟩]

/-- What feeds nothing leads nowhere. -/
theorem not_path_of_no_source {s : String} (h : ∀ e ∈ g.edges, e.source ≠ s) :
    ¬ TransGen g.IsInput s root := by
  intro hpath
  obtain ⟨t, ⟨n, hn, rfl⟩, -⟩ := TransGen.head'_iff.mp hpath
  obtain ⟨e, he, -, hlookup⟩ := mem_inputs.mp hn
  exact h e he (mem_of_lookup? hlookup).2.symm

theorem compileFrom_studioTidied :
    (studioCluttered.nodes.map Node.id).Nodup ∧ (studioTidied.nodes.map Node.id).Nodup ∧
    SameUpstream "out" studioCluttered studioTidied ∧
    studioTidied.compileFrom [] "1:1" "out" = studioCluttered.compileFrom [] "1:1" "out" := by
  have hids : (studioCluttered.nodes.map Node.id).Nodup := by decide +kernel
  have hids' : (studioTidied.nodes.map Node.id).Nodup := by decide +kernel
  have h : SameUpstream "out" studioCluttered studioTidied := {
    kept := by
      intro n hn hpath
      rcases List.mem_cons.mp hn with rfl | hn
      · exact absurd hpath (not_path_of_no_source (by decide +kernel))
      · exact ⟨reword n, List.mem_cons_of_mem _ (List.mem_map_of_mem hn), counterpart_reword n⟩
    added := by
      intro n' hn' hpath
      rcases List.mem_cons.mp hn' with rfl | hn'
      · exact absurd hpath (not_path_of_no_source (by decide +kernel))
      · obtain ⟨n, hn, rfl⟩ := List.mem_map.mp hn'
        exact ⟨n, List.mem_cons_of_mem _ hn, counterpart_reword n⟩
    edges := by
      intro t ht
      have hlens : t ≠ "lens" := by
        rintro rfl
        exact ht.elim (by decide) (not_path_of_no_source (by decide +kernel))
      have hfilm : t ≠ "film" := by
        rintro rfl
        exact ht.elim (by decide) (not_path_of_no_source (by decide +kernel))
      simp [studioTidied, studioCluttered, hlens.symm, hfilm.symm] }
  exact ⟨hids, hids', h, compileFrom_of_sameUpstream hids hids' h [] "1:1"⟩

end Graph
end PromptCanvas
