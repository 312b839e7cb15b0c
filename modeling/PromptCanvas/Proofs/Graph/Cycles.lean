import Mathlib.Data.List.Chain
import Mathlib.Logic.Relation
import PromptCanvas.Graph.Cycle
import PromptCanvas.Proofs.Graph.Reachability
import PromptCanvas.Proofs.Keyed

/-!
# Searches for cycles

The two searches over links are exact, whatever the links are: `createsCycle`, which goes in breadth
from the target of one edge, and `runsInCircles`, which goes in depth from many nodes.

The search in breadth keeps the targets of what it has looked at among what it has visited, and none
of them is the goal.  The search in depth keeps a trail along which each node leads to the next, and
a set of nodes that are done: nothing on a cycle is done, and what a done node leads to is done or
leads nowhere.
-/

namespace PromptCanvas
namespace Links

open Relation

variable {l : Links}

/-- The first id feeds the second. -/
def Leads (l : Links) (a b : String) : Prop := b ∈ l.targets a

/-! ## In breadth -/

/-- What the search meets is fed from the queue. -/
theorem exists_path_of_meets {goal : String} {visited queue : List String}
    (h : l.meets goal visited queue = true) : ∃ a ∈ queue, TransGen l.Leads a goal := by
  induction visited, queue using meets.induct l goal with
  | case1 visited => rw [meets] at h; cases h
  | case2 visited id queue hgoal =>
    exact ⟨id, List.mem_cons_self, .single (List.contains_iff_mem.mp hgoal)⟩
  | case3 visited id queue hgoal found ih =>
    rw [meets, if_neg hgoal] at h
    obtain ⟨a, ha, hpath⟩ := ih h
    rcases List.mem_append.mp ha with hqueue | hfound
    · exact ⟨a, List.mem_cons_of_mem id hqueue, hpath⟩
    · exact ⟨id, List.mem_cons_self, .head (Search.mem_newcomers.mp hfound).1 hpath⟩

/-- If the search does not meet the goal, nothing that it has visited feeds it. -/
theorem not_path_of_meets_eq_false {goal : String} {visited queue : List String}
    (hlooked : ∀ a ∈ visited, a ∈ queue ∨ ∀ b ∈ l.targets a, b ≠ goal ∧ b ∈ visited)
    (h : l.meets goal visited queue = false) : ∀ a ∈ visited, ¬ TransGen l.Leads a goal := by
  induction visited, queue using meets.induct l goal with
  | case1 visited =>
    intro a ha hpath
    have hclosed : ∀ a ∈ visited, ∀ b ∈ l.targets a, b ≠ goal ∧ b ∈ visited := fun a ha =>
      (hlooked a ha).resolve_left List.not_mem_nil
    induction hpath using TransGen.head_induction_on with
    | single hab => exact (hclosed _ ha _ hab).1 rfl
    | head hab _ ih => exact ih (hclosed _ ha _ hab).2
  | case2 visited id queue hgoal => rw [meets, if_pos hgoal] at h; cases h
  | case3 visited id queue hgoal found ih =>
    rw [meets, if_neg hgoal] at h
    have hseen : ∀ b ∈ l.targets id, b ∈ visited ++ found := by
      intro b hb
      by_cases hv : b ∈ visited
      · exact List.mem_append_left found hv
      · exact List.mem_append_right visited (Search.mem_newcomers.mpr ⟨hb, hv⟩)
    refine fun a ha => ih ?_ h a (List.mem_append_left found ha)
    intro a ha
    rcases List.mem_append.mp ha with ha | ha
    · rcases hlooked a ha with hwaits | hdone
      · rcases List.mem_cons.mp hwaits with rfl | hqueue
        · refine Or.inr fun b hb => ⟨?_, hseen b hb⟩
          rintro rfl
          exact hgoal (List.contains_iff_mem.mpr hb)
        · exact Or.inl (List.mem_append_left found hqueue)
      · exact Or.inr fun b hb => ⟨(hdone b hb).1, List.mem_append_left found (hdone b hb).2⟩
    · exact Or.inl (List.mem_append_right queue ha)

/-- A search in breadth from one node meets what the node feeds, directly or through others. -/
theorem meets_iff {goal start : String} :
    l.meets goal [start] [start] = true ↔ TransGen l.Leads start goal := by
  constructor
  · intro h
    obtain ⟨a, ha, hpath⟩ := exists_path_of_meets h
    exact List.mem_singleton.mp ha ▸ hpath
  · intro hpath
    by_contra h
    exact not_path_of_meets_eq_false (fun _ ha => Or.inl ha) (Bool.eq_false_iff.mpr h) start
      (List.mem_singleton_self start) hpath

/-- An edge closes a cycle if and only if it joins a node to itself or one or more links lead from
its target to its source. -/
theorem createsCycle_iff_eq_or_path (l : Links) (source target : String) :
    l.createsCycle source target = true ↔ source = target ∨ TransGen l.Leads target source := by
  rw [createsCycle, Bool.or_eq_true, beq_iff_eq, meets_iff]

/-! ## In depth -/

/-- The id leads nowhere. -/
def IsDeadEnd (l : Links) (a : String) : Prop := l.targets a = []

theorem targets_eq_of_find? {a : String} {bs : List String} (h : Keyed.find? a l = some bs) :
    l.targets a = bs := by
  rw [targets, h, Option.getD_some]

theorem isDeadEnd_of_find? {a : String} (h : Keyed.find? a l = none) : l.IsDeadEnd a := by
  rw [IsDeadEnd, targets, h, Option.getD_none]

theorem IsDeadEnd.not_leads {a b : String} (h : l.IsDeadEnd a) : ¬ l.Leads a b := by
  rw [Leads, h]
  exact List.not_mem_nil

/-- A trail winds from node to node: each visit was begun at a target of the one below, and what it
has still to look at are targets of its own. -/
structure Winds (l : Links) (trail : Trail) : Prop where
  chain : trail.IsChain fun upper lower => l.Leads lower.1 upper.1
  ahead : ∀ e ∈ trail, ∀ b ∈ e.2, l.Leads e.1 b

namespace Winds

variable {id : String} {rest : List String} {trail : Trail}

theorem tail {e : String × List String} (h : l.Winds (e :: trail)) : l.Winds trail :=
  ⟨h.chain.tail, fun f hf => h.ahead f (List.mem_cons_of_mem e hf)⟩

theorem look {target : String} (h : l.Winds ((id, target :: rest) :: trail)) :
    l.Winds ((id, rest) :: trail) := by
  refine ⟨?_, fun e he b hb => ?_⟩
  · cases trail with
    | nil => exact List.isChain_singleton _
    | cons lower trail => exact List.isChain_cons_cons.mpr (List.isChain_cons_cons.mp h.chain)
  · rcases List.mem_cons.mp he with rfl | he
    · exact h.ahead _ List.mem_cons_self b (List.mem_cons_of_mem target hb)
    · exact h.ahead e (List.mem_cons_of_mem _ he) b hb

theorem visit {target : String} (h : l.Winds ((id, target :: rest) :: trail)) :
    l.Winds ((target, l.targets target) :: (id, rest) :: trail) := by
  refine ⟨List.isChain_cons_cons.mpr ⟨?_, h.look.chain⟩, fun e he b hb => ?_⟩
  · exact h.ahead _ List.mem_cons_self target List.mem_cons_self
  · rcases List.mem_cons.mp he with rfl | he
    · exact hb
    · exact h.look.ahead e he b hb

/-- From everything on a trail links lead to its innermost node. -/
theorem path (h : l.Winds ((id, rest) :: trail)) {a : String}
    (ha : a ∈ Keyed.keys ((id, rest) :: trail)) : ReflTransGen l.Leads a id := by
  induction trail generalizing id rest with
  | nil =>
    rw [Keyed.keys, List.map_cons, List.map_nil, List.mem_singleton] at ha
    exact ha ▸ .refl
  | cons lower trail ih =>
    rw [Keyed.keys, List.map_cons, List.mem_cons] at ha
    rcases ha with rfl | ha
    · exact .refl
    · exact (ih h.tail ha).tail (List.isChain_cons_cons.mp h.chain).1

end Winds

section Steps

variable {done rest targets : List String} {id target : String} {trail : Trail}

theorem descend_of_dead_end
    (htrail : ¬ (Keyed.keys ((id, rest) :: trail)).contains target = true)
    (hdone : ¬ done.contains target = true) (hentry : Keyed.find? target l = none) :
    l.descend done ((id, target :: rest) :: trail) = l.descend done ((id, rest) :: trail) := by
  rw [descend, if_neg htrail, if_neg hdone]
  split
  · rfl
  · rename_i targets hfound
    rw [hentry] at hfound
    cases hfound

theorem descend_visit
    (htrail : ¬ (Keyed.keys ((id, rest) :: trail)).contains target = true)
    (hdone : ¬ done.contains target = true) (hentry : Keyed.find? target l = some targets) :
    l.descend done ((id, target :: rest) :: trail) =
      l.descend done ((target, l.targets target) :: (id, rest) :: trail) := by
  rw [descend, if_neg htrail, if_neg hdone, targets_eq_of_find? hentry]
  split
  · rename_i hnone
    rw [hentry] at hnone
    cases hnone
  · rename_i found hfound
    rw [hentry, Option.some.injEq] at hfound
    rw [hfound]

end Steps

/-- A search in depth that gives nothing has come to a cycle. -/
theorem exists_cycle_of_descend_eq_none {done : List String} {trail : Trail} (hw : l.Winds trail)
    (h : l.descend done trail = none) : ∃ a, TransGen l.Leads a a := by
  induction done, trail using descend.induct l with
  | case1 done => rw [descend] at h; cases h
  | case2 done id trail ih =>
    rw [descend] at h
    exact ih hw.tail h
  | case3 done id target rest trail htrail =>
    have hstep : l.Leads id target := hw.ahead _ List.mem_cons_self target List.mem_cons_self
    have hback := hw.look.path (List.contains_iff_mem.mp htrail)
    exact ⟨target, .tail' hback hstep⟩
  | case4 done id target rest trail htrail hdone ih =>
    rw [descend, if_neg htrail, if_pos hdone] at h
    exact ih hw.look h
  | case5 done id target rest trail htrail hdone hentry ih =>
    rw [descend_of_dead_end htrail hdone hentry] at h
    exact ih hw.look h
  | case6 done id target rest trail htrail hdone targets hentry ih =>
    rw [descend_visit htrail hdone hentry] at h
    rw [← targets_eq_of_find? hentry] at ih
    exact ih hw.visit h

/-- Nothing that is done lies on a cycle, and what it leads to is done or a dead end. -/
structure Settled (l : Links) (done : List String) : Prop where
  closed : ∀ a ∈ done, ∀ b, l.Leads a b → b ∈ done ∨ l.IsDeadEnd b
  no_cycle : ∀ a ∈ done, ¬ TransGen l.Leads a a

/-- The targets of each visit of a trail are still to be looked at, or done, or dead ends, or under
visit themselves just above. -/
def Looked (l : Links) (done : List String) : Option String → Trail → Prop
  | _, [] => True
  | above, (id, rest) :: trail =>
    (∀ b, l.Leads id b → b ∈ rest ∨ b ∈ done ∨ l.IsDeadEnd b ∨ above = some b) ∧
      l.Looked done (some id) trail

namespace Settled

variable {done : List String}

theorem nil (l : Links) : l.Settled [] :=
  ⟨fun _ ha => absurd ha List.not_mem_nil, fun _ ha => absurd ha List.not_mem_nil⟩

/-- From what is done only to what is done or to dead ends. -/
theorem path (h : l.Settled done) {a b : String} (hpath : ReflTransGen l.Leads a b)
    (ha : a ∈ done ∨ l.IsDeadEnd a) : b ∈ done ∨ l.IsDeadEnd b := by
  induction hpath with
  | refl => exact ha
  | tail _ hstep ih =>
    rcases ih with hdone | hend
    · exact h.closed _ hdone _ hstep
    · exact absurd hstep hend.not_leads

/-- A visit ends when all targets of its node are done or dead ends. -/
theorem cons (h : l.Settled done) {id : String}
    (hid : ∀ b, l.Leads id b → b ∈ done ∨ l.IsDeadEnd b) : l.Settled (id :: done) := by
  constructor
  · intro a ha b hb
    rcases List.mem_cons.mp ha with rfl | ha
    · exact (hid b hb).imp_left (List.mem_cons_of_mem a)
    · exact (h.closed a ha b hb).imp_left (List.mem_cons_of_mem id)
  · intro a ha hcycle
    rcases List.mem_cons.mp ha with rfl | ha
    · obtain ⟨b, hb, hback⟩ := TransGen.head'_iff.mp hcycle
      rcases h.path hback (hid b hb) with hdone | hend
      · exact h.no_cycle a hdone hcycle
      · exact absurd hb hend.not_leads
    · exact h.no_cycle a ha hcycle

end Settled

namespace Looked

variable {done : List String} {id : String} {rest : List String} {trail : Trail}

theorem mono {more : List String} {above : Option String} (h : l.Looked done above trail)
    (hsub : done ⊆ more) : l.Looked more above trail := by
  induction trail generalizing above with
  | nil => trivial
  | cons e trail ih =>
    refine ⟨fun b hb => ?_, ih h.2⟩
    rcases h.1 b hb with hrest | hdone | hend | habove
    · exact Or.inl hrest
    · exact Or.inr (Or.inl (hsub hdone))
    · exact Or.inr (Or.inr (Or.inl hend))
    · exact Or.inr (Or.inr (Or.inr habove))

theorem ended (h : l.Looked done (some id) trail) : l.Looked (id :: done) none trail := by
  cases trail with
  | nil => trivial
  | cons e trail =>
    refine ⟨fun b hb => ?_, h.2.mono (List.subset_cons_self id done)⟩
    rcases h.1 b hb with hrest | hdone | hend | habove
    · exact Or.inl hrest
    · exact Or.inr (Or.inl (List.mem_cons_of_mem id hdone))
    · exact Or.inr (Or.inr (Or.inl hend))
    · rw [Option.some.injEq] at habove
      exact Or.inr (Or.inl (habove ▸ List.mem_cons_self))

theorem look {target : String} (h : l.Looked done none ((id, target :: rest) :: trail))
    (htarget : target ∈ done ∨ l.IsDeadEnd target) : l.Looked done none ((id, rest) :: trail) := by
  refine ⟨fun b hb => ?_, h.2⟩
  rcases h.1 b hb with hrest | hlater
  · rcases List.mem_cons.mp hrest with rfl | hrest
    · exact Or.inr (htarget.imp_right Or.inl)
    · exact Or.inl hrest
  · exact Or.inr hlater

theorem visit {target : String} (h : l.Looked done none ((id, target :: rest) :: trail)) :
    l.Looked done none ((target, l.targets target) :: (id, rest) :: trail) := by
  refine ⟨fun b hb => Or.inl hb, fun b hb => ?_, h.2⟩
  rcases h.1 b hb with hrest | hdone | hend | habove
  · rcases List.mem_cons.mp hrest with rfl | hrest
    · exact Or.inr (Or.inr (Or.inr rfl))
    · exact Or.inl hrest
  · exact Or.inr (Or.inl hdone)
  · exact Or.inr (Or.inr (Or.inl hend))
  · cases habove

end Looked

/-- A search in depth that ends settles what it has visited. -/
theorem settled_of_descend {done ended : List String} {trail : Trail} (hs : l.Settled done)
    (hl : l.Looked done none trail) (h : l.descend done trail = some ended) :
    l.Settled ended ∧ done ⊆ ended ∧ Keyed.keys trail ⊆ ended := by
  induction done, trail using descend.induct l with
  | case1 done =>
    rw [descend, Option.some.injEq] at h
    exact h ▸ ⟨hs, List.Subset.refl done, List.nil_subset done⟩
  | case2 done id trail ih =>
    rw [descend] at h
    have hid : ∀ b, l.Leads id b → b ∈ done ∨ l.IsDeadEnd b := by
      intro b hb
      rcases hl.1 b hb with hrest | hdone | hend | habove
      · exact absurd hrest List.not_mem_nil
      · exact Or.inl hdone
      · exact Or.inr hend
      · cases habove
    obtain ⟨hended, hdone, htrail⟩ := ih (hs.cons hid) hl.2.ended h
    obtain ⟨hmem, hdone⟩ := List.cons_subset.mp hdone
    exact ⟨hended, hdone, List.cons_subset.mpr ⟨hmem, htrail⟩⟩
  | case3 done id target rest trail htrail =>
    rw [descend, if_pos htrail] at h
    cases h
  | case4 done id target rest trail htrail hdone ih =>
    rw [descend, if_neg htrail, if_pos hdone] at h
    exact ih hs (hl.look (Or.inl (List.contains_iff_mem.mp hdone))) h
  | case5 done id target rest trail htrail hdone hentry ih =>
    rw [descend_of_dead_end htrail hdone hentry] at h
    exact ih hs (hl.look (Or.inr (isDeadEnd_of_find? hentry))) h
  | case6 done id target rest trail htrail hdone targets hentry ih =>
    rw [descend_visit htrail hdone hentry] at h
    rw [← targets_eq_of_find? hentry] at ih
    obtain ⟨hended, hdone, htrail⟩ := ih hs hl.visit h
    exact ⟨hended, hdone, (List.cons_subset.mp htrail).2⟩

/-- Searches from nodes that, with those that are done, are all that lead anywhere come to a cycle
exactly if there is one. -/
theorem runsInCircles_iff {done starts : List String} (hs : l.Settled done)
    (hall : ∀ a b, l.Leads a b → a ∈ done ∨ a ∈ starts) :
    l.runsInCircles done starts = true ↔ ∃ a, TransGen l.Leads a a := by
  induction starts generalizing done with
  | nil =>
    refine iff_of_false (fun h => ?_) ?_
    · rw [runsInCircles] at h
      cases h
    · rintro ⟨a, hcycle⟩
      obtain ⟨b, hb, -⟩ := TransGen.head'_iff.mp hcycle
      exact hs.no_cycle a ((hall a b hb).resolve_right List.not_mem_nil) hcycle
  | cons id rest ih =>
    by_cases hid : done.contains id = true
    · rw [runsInCircles, if_pos hid]
      refine ih hs fun a b hb => ?_
      rcases hall a b hb with hdone | hstart
      · exact Or.inl hdone
      · rcases List.mem_cons.mp hstart with rfl | hrest
        · exact Or.inl (List.contains_iff_mem.mp hid)
        · exact Or.inr hrest
    · rw [runsInCircles, if_neg hid]
      cases hd : l.descend done [(id, l.targets id)] with
      | none =>
        refine iff_of_true rfl (exists_cycle_of_descend_eq_none ⟨List.isChain_singleton _, ?_⟩ hd)
        intro e he b hb
        exact List.mem_singleton.mp he ▸ hb
      | some ended =>
        have hl : l.Looked done none [(id, l.targets id)] := ⟨fun b hb => Or.inl hb, trivial⟩
        obtain ⟨hended, hdone, hkeys⟩ := settled_of_descend hs hl hd
        refine ih hended fun a b hb => ?_
        rcases hall a b hb with hmem | hstart
        · exact Or.inl (hdone hmem)
        · rcases List.mem_cons.mp hstart with rfl | hrest
          · exact Or.inl (hkeys List.mem_cons_self)
          · exact Or.inr hrest

/-- With an entry for every node that leads anywhere, a search from all entries is exact. -/
theorem runsInCircles_keys_iff :
    l.runsInCircles [] (Keyed.keys l) = true ↔ ∃ a, TransGen l.Leads a a := by
  refine runsInCircles_iff (Settled.nil l) fun a b hb => Or.inr ?_
  by_contra hkey
  exact (isDeadEnd_of_find? (Keyed.find?_eq_none_iff.mpr hkey)).not_leads hb

end Links
end PromptCanvas
