import Mathlib.Data.Fintype.EquivFin
import Mathlib.Data.Fintype.Sets
import PromptCanvas.Proofs.Graph.Acyclicity
import PromptCanvas.Proofs.Graph.Sound
import PromptCanvas.View.Visible

/-!
# Nesting

A node lies in the group that it names as its parent.  A graph is well nested if nothing lies in
itself, however far up; then climbing from parent to parent comes to an end, since the nodes are
finitely many and each parent is one of them.

Who lies in whom is a relation like the one that edges draw, so the facts about acyclic edges and
the search of links serve for parents too.
-/

namespace PromptCanvas
namespace Graph

open Relation

variable {α : Type}

/-- A node of the first id has the second id as its parent. -/
def LiesIn (g : Graph α) (a b : String) : Prop := ∃ n ∈ g.nodes, n.id = a ∧ n.parent = some b

/-- Nothing lies in itself, directly or through others. -/
def WellNested (g : Graph α) : Prop := ∀ a, ¬ TransGen g.LiesIn a a

/-- Every parent is the id of a node. -/
def Rooted (g : Graph α) : Prop := ∀ n ∈ g.nodes, ∀ p, n.parent = some p → p ∈ g.ids

/-- Climbs so many times from a node to its parent. -/
def climb (g : Graph α) : Nat → Node α → Option (Node α)
  | 0, n => some n
  | k + 1, n => (n.parent.bind g.lookup?).bind (g.climb k)

/-! ## Parents as edges -/

def memberships (g : Graph α) : List Edge :=
  g.nodes.filterMap fun n => n.parent.map fun p => ⟨n.id, n.id, p⟩

theorem feeds_memberships (g : Graph α) : Feeds g.memberships = g.LiesIn := by
  funext a b
  refine propext ⟨?_, ?_⟩
  · rintro ⟨e, he, rfl, rfl⟩
    obtain ⟨n, hn, hsome⟩ := List.mem_filterMap.mp he
    obtain ⟨p, hp, rfl⟩ := Option.map_eq_some_iff.mp hsome
    exact ⟨n, hn, rfl, hp⟩
  · rintro ⟨n, hn, rfl, hp⟩
    exact ⟨⟨n.id, n.id, b⟩, List.mem_filterMap.mpr ⟨n, hn, by rw [hp]; rfl⟩, rfl, rfl⟩

theorem wellNested_iff_acyclic {g : Graph α} : g.WellNested ↔ Acyclic g.memberships := by
  rw [Acyclic, feeds_memberships, WellNested]

instance (g : Graph α) : Decidable g.WellNested :=
  decidable_of_iff (hasCycle g.memberships = false)
    (hasCycle_eq_false_iff.trans wellNested_iff_acyclic.symm)

instance (g : Graph α) (a b : String) : Decidable (ReflTransGen g.LiesIn a b) :=
  decidable_of_iff ((Links.ofEdges g.memberships).createsCycle b a = true) <| by
    rw [Links.createsCycle_ofEdges_iff, feeds_memberships]

/-! ## Climbing -/

theorem exists_lookup?_iff {g : Graph α} {id : String} :
    (∃ n, g.lookup? id = some n) ↔ id ∈ g.ids := by
  rw [ids, ← exists_kindOf_iff, kindOf]
  cases g.lookup? id <;> simp

/-- What holds of a node as soon as it holds of its parent holds of every node of a well-nested
graph. -/
theorem WellNested.climbing {g : Graph α} (h : g.WellNested) {motive : Node α → Prop}
    (step : ∀ n ∈ g.nodes,
      (∀ p m, n.parent = some p → g.lookup? p = some m → motive m) → motive n) :
    ∀ n ∈ g.nodes, motive n := by
  -- An ancestor comes before what lies in it; no id comes before itself, and the ids are finite.
  let Above (a b : {id // id ∈ g.ids}) : Prop := TransGen g.LiesIn b.1 a.1
  have hwf : WellFounded Above := by
    have : IsTrans _ Above := ⟨fun a b c hab hbc => hbc.trans hab⟩
    have : Std.Irrefl Above := ⟨fun a => h a.1⟩
    exact Finite.wellFounded_of_trans_of_irrefl Above
  have hall : ∀ a : {id // id ∈ g.ids}, ∀ n ∈ g.nodes, n.id = a.1 → motive n := by
    intro a
    induction a using hwf.induction with
    | h a ih =>
      intro n hn hid
      refine step n hn fun p m hp hm => ?_
      obtain ⟨hmem, hsame⟩ := mem_of_lookup? hm
      exact ih ⟨p, hsame ▸ List.mem_map_of_mem hmem⟩ (.single ⟨n, hn, hid, hp⟩) m hmem hsame
  exact fun n hn => hall ⟨n.id, List.mem_map_of_mem hn⟩ n hn rfl

/-- In a well-nested graph climbing comes to an end, at a node that lies in none. -/
theorem WellNested.exists_climb {g : Graph α} (h : g.WellNested) (hroot : g.Rooted) :
    ∀ n ∈ g.nodes, ∃ k m, g.climb k n = some m ∧ m.parent = none := by
  refine h.climbing fun n hn ih => ?_
  cases hp : n.parent with
  | none => exact ⟨0, n, rfl, hp⟩
  | some p =>
    obtain ⟨above, habove⟩ := exists_lookup?_iff.mpr (hroot n hn p hp)
    obtain ⟨k, m, hk, hm⟩ := ih p above hp habove
    refine ⟨k + 1, m, ?_, hm⟩
    rw [climb, hp, Option.bind_some, habove, Option.bind_some, hk]

/-! ## Changes that keep a graph nested -/

/-- Parents are nodes, and climbing to them never comes round. -/
structure Nested (g : Graph α) : Prop where
  rooted : g.Rooted
  wellNested : g.WellNested

variable {g : Graph α}

theorem WellNested.mono {g' : Graph α} (h : g.WellNested) (hle : g'.LiesIn ≤ g.LiesIn) :
    g'.WellNested :=
  fun a ha => h a (TransGen.mono hle a a ha)

/-- Nothing is put anywhere, and no node goes while another lies in it. -/
theorem Nested.mono {g' : Graph α} (h : g.Nested)
    (hkept : ∀ a p, g'.LiesIn a p → g.LiesIn a p ∧ (p ∈ g.ids → p ∈ g'.ids)) : g'.Nested := by
  refine ⟨fun n hn p hp => ?_, h.wellNested.mono fun a b hab => (hkept a b hab).1⟩
  obtain ⟨⟨m, hm, -, hmp⟩, hids⟩ := hkept n.id p ⟨n, hn, rfl, hp⟩
  exact hids (h.rooted m hm p hmp)

theorem nested_single {n : Node α} (hp : n.parent = none) (edges : List Edge) :
    (Graph.mk [n] edges).Nested := by
  have hnone : ∀ a p, ¬ (Graph.mk [n] edges).LiesIn a p := by
    rintro a p ⟨m, hm, -, hmp⟩
    rw [List.mem_singleton.mp hm, hp] at hmp
    cases hmp
  refine ⟨fun m hm p hmp => absurd ⟨m, hm, rfl, hmp⟩ (hnone m.id p), fun a ha => ?_⟩
  obtain ⟨b, hab, -⟩ := TransGen.head'_iff.mp ha
  exact hnone a b hab

theorem Nested.with_edges (h : g.Nested) (edges : List Edge) : (Graph.mk g.nodes edges).Nested :=
  h.mono fun _ _ hl => ⟨hl, id⟩

theorem Nested.add_node (h : g.Nested) {n : Node α} (hp : n.parent = none) (edges : List Edge) :
    (Graph.mk (g.nodes ++ [n]) edges).Nested := by
  refine h.mono ?_
  rintro a p ⟨m, hm, ha, hmp⟩
  rcases List.mem_append.mp hm with hm | hm
  · refine ⟨⟨m, hm, ha, hmp⟩, fun hmem => ?_⟩
    rw [ids, List.map_append]
    exact List.mem_append_left _ hmem
  · rw [List.mem_singleton.mp hm, hp] at hmp
    cases hmp

theorem Nested.map_nodes (h : g.Nested) {change : Node α → Node α}
    (hid : ∀ n, (change n).id = n.id) (hparent : ∀ n, (change n).parent = n.parent)
    (edges : List Edge) : (Graph.mk (g.nodes.map change) edges).Nested := by
  refine h.mono ?_
  rintro a p ⟨m, hm, ha, hmp⟩
  obtain ⟨n, hn, rfl⟩ := List.mem_map.mp hm
  refine ⟨⟨n, hn, (hid n).symm.trans ha, (hparent n).symm.trans hmp⟩, fun hmem => ?_⟩
  have hids : (Graph.mk (g.nodes.map change) edges).ids = g.ids := by
    rw [ids, List.map_map]
    exact List.map_congr_left fun n _ => hid n
  rw [hids]
  exact hmem

/-- Nodes go, and with each the memberships in it. -/
theorem Nested.remove_nodes (h : g.Nested) {gone : List String} {change : Node α → Node α}
    (hid : ∀ n, (change n).id = n.id)
    (hparent : ∀ n p, (change n).parent = some p → n.parent = some p ∧ p ∉ gone)
    (edges : List Edge) :
    (Graph.mk ((g.nodes.filter fun n => !gone.contains n.id).map change) edges).Nested := by
  refine h.mono ?_
  rintro a p ⟨m, hm, ha, hmp⟩
  obtain ⟨n, hn, rfl⟩ := List.mem_map.mp hm
  obtain ⟨hp, hstays⟩ := hparent n p hmp
  refine ⟨⟨n, (List.mem_filter.mp hn).1, (hid n).symm.trans ha, hp⟩, fun hmem => ?_⟩
  obtain ⟨q, hq, rfl⟩ := List.mem_map.mp hmem
  have hq' : q ∈ g.nodes.filter fun n => !gone.contains n.id :=
    List.mem_filter.mpr ⟨hq, by simpa using hstays⟩
  exact List.mem_map.mpr ⟨change q, List.mem_map_of_mem hq', hid q⟩

theorem ids_mapNode {id : String} {n : Node α} (hid : n.id = id) :
    (g.mapNode id fun _ => n).ids = g.ids := by
  rw [mapNode, ids, List.map_map]
  refine List.map_congr_left fun m _ => ?_
  show (if m.id == id then n else m).id = m.id
  split
  · rename_i hm
    rw [hid, eq_of_beq hm]
  · rfl

/-- Where a node is replaced, the new one alone can lie elsewhere. -/
theorem liesIn_of_mapNode {id a b : String} {n : Node α} (hid : n.id = id)
    (h : (g.mapNode id fun _ => n).LiesIn a b) : g.LiesIn a b ∨ a = id ∧ n.parent = some b := by
  obtain ⟨m', hm', ha, hp⟩ := h
  obtain ⟨m, hm, rfl⟩ := List.mem_map.mp hm'
  split at ha
  · rename_i hmid
    rw [if_pos hmid] at hp
    exact Or.inr ⟨ha.symm.trans hid, hp⟩
  · rename_i hmid
    rw [if_neg hmid] at hp
    exact Or.inl ⟨m, hm, ha, hp⟩

theorem Nested.replace_node (h : g.Nested) {id : String} {n : Node α} (hid : n.id = id)
    (hparent : ∀ p, n.parent = some p → g.LiesIn id p) :
    (g.mapNode id fun _ => n).Nested := by
  refine h.mono fun a p hl => ⟨?_, fun hmem => (ids_mapNode hid).symm ▸ hmem⟩
  rcases liesIn_of_mapNode hid hl with hl | ⟨rfl, hp⟩
  · exact hl
  · exact hparent p hp

/-- A node is put into another that does not lie in it. -/
theorem Nested.put_into (h : g.Nested) {id group : String} {n : Node α} (hid : n.id = id)
    (hp : n.parent = some group) (hgroup : group ∈ g.ids)
    (hfree : ¬ ReflTransGen g.LiesIn group id) : (g.mapNode id fun _ => n).Nested := by
  have hlies : ∀ a b, (g.mapNode id fun _ => n).LiesIn a b →
      g.LiesIn a b ∨ a = id ∧ b = group := by
    intro a b hl
    refine (liesIn_of_mapNode hid hl).imp_right fun ⟨ha, hb⟩ => ⟨ha, ?_⟩
    exact Option.some.inj (hb.symm.trans hp)
  constructor
  · intro m hm p hmp
    rw [ids_mapNode hid]
    rcases hlies m.id p ⟨m, hm, rfl, hmp⟩ with ⟨k, hk, -, hkp⟩ | ⟨-, rfl⟩
    · exact h.rooted k hk p hkp
    · exact hgroup
  · -- The new membership is one more edge, and the edges before it do not lead back.
    have hac : Acyclic (g.memberships ++ [⟨id, id, group⟩]) := by
      rw [acyclic_append_iff, feeds_memberships]
      exact ⟨wellNested_iff_acyclic.mp h.wellNested, hfree⟩
    refine fun a ha => hac a (TransGen.mono (fun x y hxy => ?_) a a ha)
    rw [feeds_append, feeds_memberships]
    exact (hlies x y hxy).imp_right fun ⟨hx, hy⟩ => ⟨hx.symm, hy.symm⟩

/-- A node that is put into one that lies in it comes to lie in itself. -/
theorem transGen_of_put_into {id group : String} {n m : Node α} (hm : m ∈ g.nodes)
    (hmid : m.id = id) (hid : n.id = id) (hp : n.parent = some group)
    (hlies : ReflTransGen g.LiesIn group id) :
    TransGen (g.mapNode id fun _ => n).LiesIn id id := by
  have hnew : (g.mapNode id fun _ => n).LiesIn id group := by
    refine ⟨n, List.mem_map.mpr ⟨m, hm, ?_⟩, hid, hp⟩
    rw [if_pos (beq_iff_eq.mpr hmid)]
  -- Up to the first visit of the node, no step was changed.
  have hpath : ReflTransGen (g.mapNode id fun _ => n).LiesIn group id := by
    clear hnew hp
    induction hlies using ReflTransGen.head_induction_on with
    | refl => exact .refl
    | head hab _ ih =>
      rename_i a _ _
      by_cases ha : a = id
      · rw [ha]
      · obtain ⟨k, hk, hka, hkp⟩ := hab
        refine .head ⟨k, List.mem_map.mpr ⟨k, hk, ?_⟩, hka, hkp⟩ ih
        rw [if_neg (by simpa [hka] using ha)]
  exact .head' hnew hpath

end Graph
end PromptCanvas
