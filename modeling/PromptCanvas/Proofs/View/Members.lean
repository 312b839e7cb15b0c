import Mathlib.Data.List.Nodup
import Mathlib.Order.Bounds.Basic
import PromptCanvas.Proofs.Graph.Reachability
import PromptCanvas.Proofs.Graph.Sound
import PromptCanvas.View.Engine

/-!
# Groups take their members along

What is dragged is found round by round: each round pulls in the members of all groups that were
found so far, and the rounds end when one finds nobody new.  `Graph.ClosedOver` says what a set of
ids must have to be dragged for a selection, and what the rounds end with is the least such set.
Groups may lie within each other at any depth, also in a ring.

Each round pulls in a node that was left out, so there are no more rounds than nodes left out.  What
a round adds is in every set that has the members of its groups; that is why the rounds end with
nothing too much.
-/

namespace PromptCanvas
namespace Graph

variable {α : Type}

/-- The set has the selected ids that the graph has, and with each id those of its members. -/
structure ClosedOver (g : Graph α) (selection : List String) (S : Set String) : Prop where
  selected : ∀ id ∈ selection, id ∈ g.ids → id ∈ S
  members : ∀ n ∈ g.nodes, ∀ group, n.parent = some group → group ∈ S → n.id ∈ S

/-- One round: the members of the groups among some ids join them. -/
def pullIn (g : Graph α) (ids : List String) : List String := ids ++ g.newMembers ids

theorem mem_present {g : Graph α} {selection : List String} {id : String} :
    id ∈ g.present selection ↔ id ∈ selection ∧ id ∈ g.ids := by
  rw [present, Search.mem_newcomers, List.mem_filter, isSome_node?_iff, ids]
  exact and_iff_left List.not_mem_nil

theorem mem_newMembers {g : Graph α} {ids : List String} {id : String} :
    id ∈ g.newMembers ids ↔
      (∃ n ∈ g.nodes, n.id = id ∧ ∃ group ∈ ids, n.parent = some group) ∧ id ∉ ids := by
  rw [newMembers, Search.mem_map_newcomers, List.mem_map]
  refine and_congr_left fun _ => exists_congr fun n => ?_
  rw [List.mem_filter, Option.any_eq_true]
  simp only [List.contains_iff_mem]
  constructor
  · rintro ⟨⟨hn, group, hparent, hgroup⟩, hid⟩
    exact ⟨hn, hid, group, hgroup, hparent⟩
  · rintro ⟨hn, hid, group, hgroup, hparent⟩
    exact ⟨⟨hn, group, hparent, hgroup⟩, hid⟩

/-! ## One round -/

theorem nodup_pullIn {g : Graph α} {ids : List String} (h : ids.Nodup) : (g.pullIn ids).Nodup :=
  List.Nodup.append h (Search.nodup_map_newcomers _ _ _) fun _ hid hnew =>
    (mem_newMembers.mp hnew).2 hid

theorem mem_ids_of_mem_pullIn {g : Graph α} {ids : List String} (h : ∀ id ∈ ids, id ∈ g.ids)
    {id : String} (hid : id ∈ g.pullIn ids) : id ∈ g.ids := by
  rcases List.mem_append.mp hid with hid | hnew
  · exact h id hid
  · obtain ⟨⟨n, hn, rfl, -⟩, -⟩ := mem_newMembers.mp hnew
    exact List.mem_map_of_mem hn

/-- A round stays within every set that has the members of its groups. -/
theorem mem_of_mem_pullIn {g : Graph α} {selection ids : List String} {S : Set String}
    (hS : g.ClosedOver selection S) (h : ∀ id ∈ ids, id ∈ S) {id : String}
    (hid : id ∈ g.pullIn ids) : id ∈ S := by
  rcases List.mem_append.mp hid with hid | hnew
  · exact h id hid
  · obtain ⟨⟨n, hn, rfl, group, hgroup, hparent⟩, -⟩ := mem_newMembers.mp hnew
    exact hS.members n hn group hparent (h group hgroup)

/-! ## All rounds -/

theorem withMembers_eq (g : Graph α) (ids : List String) :
    g.withMembers ids =
      if (g.newMembers ids).isEmpty then ids else g.withMembers (g.pullIn ids) := by
  rw [withMembers, pullIn]

/-- What every round keeps holds in the end. -/
theorem withMembers_induction {g : Graph α} {P : List String → Prop}
    (hround : ∀ ids, P ids → P (g.pullIn ids)) {ids : List String} (h : P ids) :
    P (g.withMembers ids) := by
  induction ids using withMembers.induct g with
  | case1 ids hnew => rwa [withMembers_eq, if_pos hnew]
  | case2 ids hnew ih =>
    rw [withMembers_eq, if_neg hnew]
    exact ih (hround ids h)

/-- The rounds end, after no more of them than there are nodes left out, and the last one finds
nobody new. -/
theorem exists_rounds_withMembers (g : Graph α) (ids : List String) :
    ∃ rounds ≤ (Search.remaining g.ids ids).length,
      g.withMembers ids = g.pullIn^[rounds] ids ∧ g.newMembers (g.withMembers ids) = [] := by
  induction ids using withMembers.induct g with
  | case1 ids hnew =>
    rw [withMembers_eq, if_pos hnew]
    exact ⟨0, Nat.zero_le _, rfl, List.isEmpty_iff.mp hnew⟩
  | case2 ids hnew ih =>
    rw [withMembers_eq, if_neg hnew]
    obtain ⟨rounds, hle, heq, hlast⟩ := ih
    have hfewer := g.length_remaining_newMembers ids
    rw [List.isEmpty_iff_length_eq_zero] at hnew
    exact ⟨rounds + 1, by omega, heq, hlast⟩

/-- Ids that no round adds to have all their members among them. -/
theorem mem_of_newMembers_eq_nil {g : Graph α} {ids : List String} (h : g.newMembers ids = [])
    {n : Node α} (hn : n ∈ g.nodes) {group : String} (hparent : n.parent = some group)
    (hgroup : group ∈ ids) : n.id ∈ ids := by
  by_contra hid
  have hnew : n.id ∈ g.newMembers ids :=
    mem_newMembers.mpr ⟨⟨n, hn, rfl, group, hgroup, hparent⟩, hid⟩
  rw [h] at hnew
  exact List.not_mem_nil hnew

/-! ## What is dragged -/

/-- Only nodes of the graph are dragged. -/
theorem mem_ids_of_mem_dragged {g : Graph α} {selection : List String} {id : String}
    (h : id ∈ g.dragged selection) : id ∈ g.ids :=
  withMembers_induction (P := fun ids => ∀ id ∈ ids, id ∈ g.ids)
    (fun _ h _ => mem_ids_of_mem_pullIn h) (fun _ hid => (mem_present.mp hid).2) id h

theorem nodup_dragged (g : Graph α) (selection : List String) : (g.dragged selection).Nodup := by
  refine withMembers_induction (P := List.Nodup) (fun _ => nodup_pullIn) ?_
  have h := Search.nodup_map_newcomers (fun i => i) []
    (selection.filter fun i => (g.node? i).isSome)
  rwa [List.map_id'] at h

/-- What is dragged is the least set that has what is selected and with each id its members. -/
theorem isLeast_dragged (g : Graph α) (selection : List String) :
    IsLeast {S : Set String | g.ClosedOver selection S} {id | id ∈ g.dragged selection} := by
  obtain ⟨-, -, -, hlast⟩ := g.exists_rounds_withMembers (g.present selection)
  constructor
  · constructor
    · intro id hid hmem
      exact withMembers_induction (P := fun ids => id ∈ ids)
        (fun _ => List.mem_append_left _) (mem_present.mpr ⟨hid, hmem⟩)
    · exact fun n hn group hparent hgroup => mem_of_newMembers_eq_nil hlast hn hparent hgroup
  · intro S hS id hid
    exact withMembers_induction (P := fun ids => ∀ id ∈ ids, id ∈ S)
      (fun _ h _ => mem_of_mem_pullIn hS h)
      (fun i hi => hS.selected i (mem_present.mp hi).1 (mem_present.mp hi).2) id hid

end Graph
end PromptCanvas
