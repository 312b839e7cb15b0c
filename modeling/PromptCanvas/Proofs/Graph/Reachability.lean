import Mathlib.Logic.Relation
import PromptCanvas.Graph.Search

/-!
# What a breadth-first search visits

`Search.reach next pending queue` visits exactly what can be reached from the queue by steps of
`next`, as long as no step leaves the pending and the queued values.  The theorem this file exists
for is `mem_reach_iff`.

Both halves follow the recursion of `reach`.  Soundness carries "reached from some value of the
queue"; completeness carries closure: a pending value one step from a visited one is visited.
-/

namespace PromptCanvas
namespace Search

variable {β : Type} [DecidableEq β]

/-! ## Entering -/

theorem mem_without {b c : β} {bs : List β} : c ∈ without b bs ↔ c ∈ bs ∧ c ≠ b := by
  rw [without, List.mem_filter, decide_eq_true_eq]

theorem mem_enter_fst {c : β} {bs pending : List β} :
    c ∈ (enter bs pending).1 ↔ c ∈ bs ∧ c ∈ pending := by
  induction bs generalizing pending with
  | nil => simp [enter]
  | cons b rest ih =>
    by_cases hb : b ∈ pending
    · simp only [enter, hb, if_true, List.mem_cons, ih, mem_without]
      by_cases hc : c = b
      · subst hc; simp [hb]
      · simp [hc]
    · simp only [enter, hb, if_false, ih, List.mem_cons]
      constructor
      · exact fun h => ⟨Or.inr h.1, h.2⟩
      · rintro ⟨rfl | h, hp⟩
        · exact absurd hp hb
        · exact ⟨h, hp⟩

theorem mem_enter_snd {c : β} {bs pending : List β} :
    c ∈ (enter bs pending).2 ↔ c ∉ bs ∧ c ∈ pending := by
  induction bs generalizing pending with
  | nil => simp [enter]
  | cons b rest ih =>
    by_cases hb : b ∈ pending
    · simp only [enter, hb, if_true, List.mem_cons, ih, mem_without]
      constructor
      · rintro ⟨hr, hp, hne⟩
        exact ⟨fun h => h.elim hne hr, hp⟩
      · rintro ⟨hr, hp⟩
        exact ⟨fun h => hr (Or.inr h), hp, fun h => hr (Or.inl h)⟩
    · simp only [enter, hb, if_false, ih, List.mem_cons]
      constructor
      · rintro ⟨hr, hp⟩
        exact ⟨fun h => h.elim (fun e => hb (e ▸ hp)) hr, hp⟩
      · rintro ⟨hr, hp⟩
        exact ⟨fun h => hr (Or.inr h), hp⟩

theorem newcomers_sublist {α : Type} (key : α → β) (seen : List β) (as : List α) :
    (newcomers key seen as).Sublist as := by
  induction as generalizing seen with
  | nil => exact .slnil
  | cons a rest ih =>
    by_cases ha : key a ∈ seen
    · simpa only [newcomers, ha, if_true] using (ih seen).cons a
    · simpa only [newcomers, ha, if_false] using (ih (seen ++ [key a])).cons_cons a

/-- The newcomers have the keys that have not been seen. -/
theorem mem_map_newcomers {α : Type} {key : α → β} {b : β} {seen : List β} {as : List α} :
    b ∈ (newcomers key seen as).map key ↔ b ∈ as.map key ∧ b ∉ seen := by
  induction as generalizing seen with
  | nil => simp [newcomers]
  | cons a rest ih =>
    by_cases ha : key a ∈ seen
    · simp only [newcomers, ha, if_true, ih, List.map_cons, List.mem_cons]
      constructor
      · exact fun h => ⟨Or.inr h.1, h.2⟩
      · rintro ⟨rfl | hr, hs⟩
        · exact absurd ha hs
        · exact ⟨hr, hs⟩
    · simp only [newcomers, ha, if_false, List.map_cons, List.mem_cons, ih, List.mem_append, not_or]
      by_cases hb : b = key a
      · simp [hb, ha]
      · simp [hb]

theorem mem_newcomers {b : β} {seen bs : List β} :
    b ∈ newcomers (fun b => b) seen bs ↔ b ∈ bs ∧ b ∉ seen := by
  have h : b ∈ (newcomers (fun b => b) seen bs).map (fun b => b) ↔
      b ∈ bs.map (fun b => b) ∧ b ∉ seen := mem_map_newcomers
  rwa [List.map_id', List.map_id'] at h

/-- No two newcomers have the same key. -/
theorem nodup_map_newcomers {α : Type} (key : α → β) (seen : List β) (as : List α) :
    ((newcomers key seen as).map key).Nodup := by
  induction as generalizing seen with
  | nil => exact List.nodup_nil
  | cons a rest ih =>
    by_cases ha : key a ∈ seen
    · simpa only [newcomers, ha, if_true] using ih seen
    · simp only [newcomers, ha, if_false, List.map_cons, List.nodup_cons]
      refine ⟨fun hmem => ?_, ih (seen ++ [key a])⟩
      exact (mem_map_newcomers.mp hmem).2 (List.mem_append_right seen (List.mem_singleton_self _))

/-! ## Visits -/

variable {next : β → List β}

theorem reach_nil (pending : List β) : reach next pending [] = [] := by
  rw [reach]

theorem reach_cons (b : β) (pending queue : List β) :
    reach next pending (b :: queue) =
      b :: reach next (enter (next b) pending).2 (queue ++ (enter (next b) pending).1) := by
  rw [reach]

/-- What is queued is visited. -/
theorem mem_reach_of_mem_queue {b : β} {pending queue : List β} (h : b ∈ queue) :
    b ∈ reach next pending queue := by
  induction pending, queue using reach.induct next with
  | case1 pending => exact absurd h List.not_mem_nil
  | case2 pending a queue step ih =>
    rw [reach_cons]
    rcases List.mem_cons.mp h with rfl | hq
    · exact List.mem_cons_self
    · exact List.mem_cons_of_mem a (ih (List.mem_append_left step.1 hq))

/-- Everything visited is reached from the queue by steps. -/
theorem reached_of_mem_reach {b : β} {pending queue : List β} (h : b ∈ reach next pending queue) :
    ∃ a ∈ queue, Relation.ReflTransGen (fun x y => y ∈ next x) a b := by
  induction pending, queue using reach.induct next with
  | case1 pending => rw [reach_nil] at h; exact absurd h List.not_mem_nil
  | case2 pending a queue step ih =>
    rw [reach_cons] at h
    rcases List.mem_cons.mp h with rfl | hr
    · exact ⟨b, List.mem_cons_self, .refl⟩
    · obtain ⟨c, hc, hcb⟩ := ih hr
      rcases List.mem_append.mp hc with hq | hs
      · exact ⟨c, List.mem_cons_of_mem a hq, hcb⟩
      · exact ⟨a, List.mem_cons_self, .head (mem_enter_fst.mp hs).1 hcb⟩

/-- A pending value one step from a visited one is visited. -/
theorem mem_reach_of_step {b c : β} {pending queue : List β} (h : b ∈ reach next pending queue)
    (hstep : c ∈ next b) (hc : c ∈ pending) : c ∈ reach next pending queue := by
  induction pending, queue using reach.induct next with
  | case1 pending => rw [reach_nil] at h; exact absurd h List.not_mem_nil
  | case2 pending a queue step ih =>
    rw [reach_cons] at h ⊢
    -- A value entered at this visit is queued; any other stays pending for the rest of the walk.
    by_cases ha : c ∈ next a
    · have hs : c ∈ step.1 := mem_enter_fst.mpr ⟨ha, hc⟩
      exact List.mem_cons_of_mem a (mem_reach_of_mem_queue (List.mem_append_right queue hs))
    · rcases List.mem_cons.mp h with rfl | hr
      · exact absurd hstep ha
      · exact List.mem_cons_of_mem a (ih hr (mem_enter_snd.mpr ⟨ha, hc⟩))

/-- A search that may enter every value a step leads to visits exactly what is reached. -/
theorem mem_reach_iff {pending queue : List β}
    (hnext : ∀ x y, y ∈ next x → y ∈ pending ∨ y ∈ queue) {b : β} :
    b ∈ reach next pending queue ↔
      ∃ a ∈ queue, Relation.ReflTransGen (fun x y => y ∈ next x) a b := by
  constructor
  · exact reached_of_mem_reach
  · rintro ⟨a, ha, hab⟩
    induction hab with
    | refl => exact mem_reach_of_mem_queue ha
    | tail _ hstep ih =>
      rcases hnext _ _ hstep with hp | hq
      · exact mem_reach_of_step ih hstep hp
      · exact mem_reach_of_mem_queue hq

end Search
end PromptCanvas
