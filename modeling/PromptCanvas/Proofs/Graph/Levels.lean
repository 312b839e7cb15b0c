import Mathlib.Data.List.Nodup
import PromptCanvas.Proofs.Graph.Visits

/-!
# Levels of a breadth-first search

A search visits its whole queue, then all that it entered meanwhile, and so on: level by level.
That gives the order of the visits.  `pairwise_reach` says that nothing is visited before a value
that fewer steps lead to, and `nodup_reach` that each value is visited once.

The order is proved along the levels, and for that the search has to enter a value at the first step
that leads to it.  So what is neither queued nor pending must have been visited before: no step of
it may lead to a pending value.
-/

namespace PromptCanvas
namespace Search

variable {β : Type} [DecidableEq β] {next : β → List β}

/-! ## Entering -/

theorem nodup_enter (bs pending : List β) : (enter bs pending).1.Nodup := by
  induction bs generalizing pending with
  | nil => exact List.nodup_nil
  | cons b rest ih =>
    by_cases hb : b ∈ pending
    · simp only [enter, hb, if_true, List.nodup_cons]
      refine ⟨fun h => ?_, ih (without b pending)⟩
      exact (mem_without.mp (mem_enter_fst.mp h).2).2 rfl
    · simpa only [enter, hb, if_false] using ih pending

/-- What is entered is the first occurrence of each pending value. -/
theorem enter_fst_eq_eraseDups (bs pending : List β) :
    (enter bs pending).1 = (bs.filter (· ∈ pending)).eraseDups := by
  induction bs generalizing pending with
  | nil => rfl
  | cons b rest ih =>
    by_cases hb : b ∈ pending
    · have hrest : rest.filter (· ∈ without b pending) =
          (rest.filter (· ∈ pending)).filter fun c => !c == b := by
        rw [List.filter_filter]
        refine List.filter_congr fun c _ => ?_
        rw [Bool.eq_iff_iff]
        simp [mem_without, and_comm]
      simp only [enter, List.filter_cons, hb, decide_true, if_true, List.eraseDups_cons, ih, hrest]
    · simpa only [enter, List.filter_cons, hb, decide_false, Bool.false_eq_true, if_false] using
        ih pending

/-! ## Visits -/

theorem nodup_reach {pending queue : List β} (hq : queue.Nodup)
    (hdisjoint : queue.Disjoint pending) : (reach next pending queue).Nodup := by
  induction pending, queue using reach.induct next with
  | case1 pending => rw [reach_nil]; exact List.nodup_nil
  | case2 pending b queue step ih =>
    obtain ⟨hb, hq⟩ := List.nodup_cons.mp hq
    obtain ⟨hbp, hdisjoint⟩ := List.disjoint_cons_left.mp hdisjoint
    have hentered : ∀ c ∈ step.1, c ∈ pending := fun c hc => (mem_enter_fst.mp hc).2
    have hleft : ∀ c ∈ step.2, c ∈ pending := fun c hc => (mem_enter_snd.mp hc).2
    have hqueue : (queue ++ step.1).Nodup :=
      hq.append (nodup_enter _ _) fun c hc hs => hdisjoint hc (hentered c hs)
    rw [reach_cons, List.nodup_cons]
    refine ⟨fun hmem => ?_, ih hqueue fun c hc hp => ?_⟩
    · rcases mem_of_mem_reach hmem with hmem | hmem
      · rcases List.mem_append.mp hmem with hmem | hmem
        · exact hb hmem
        · exact hbp (hentered b hmem)
      · exact hbp (hleft b hmem)
    · rcases List.mem_append.mp hc with hc | hc
      · exact hdisjoint hc (hleft c hp)
      · exact (mem_enter_snd.mp hp).1 (mem_enter_fst.mp hc).1

/-- What is entered while the whole queue is visited. -/
def level (next : β → List β) (pending queue : List β) : List β × List β :=
  enter (queue.flatMap next) pending

theorem reach_append (pending queue more : List β) :
    reach next pending (queue ++ more) =
      queue ++ reach next (level next pending queue).2 (more ++ (level next pending queue).1) := by
  induction queue generalizing pending more with
  | nil => rw [level, List.flatMap_nil, enter, List.nil_append, List.nil_append, List.append_nil]
  | cons b queue ih =>
    have hfst : (level next pending (b :: queue)).1 =
        (enter (next b) pending).1 ++ (level next (enter (next b) pending).2 queue).1 :=
      enter_append (next b) (queue.flatMap next) pending
    have hsnd : (level next pending (b :: queue)).2 =
        (level next (enter (next b) pending).2 queue).2 :=
      enter_append_snd (next b) (queue.flatMap next) pending
    rw [List.cons_append, reach_cons, List.append_assoc, ih, hfst, hsnd, List.append_assoc,
      List.cons_append]

/-- The queue is visited first, and then what was entered meanwhile. -/
theorem reach_level (pending queue : List β) :
    reach next pending queue =
      queue ++ reach next (level next pending queue).2 (level next pending queue).1 := by
  calc reach next pending queue = reach next pending (queue ++ []) := by rw [List.append_nil]
    _ = _ := by rw [reach_append, List.nil_append]

/-! ## Steps -/

/-- So many steps lead to the value from the queue. -/
inductive ReachedIn (next : β → List β) (queue : List β) : Nat → β → Prop
  | queued {b : β} (h : b ∈ queue) : ReachedIn next queue 0 b
  | step {k : Nat} {a b : β} (h : ReachedIn next queue k a) (hb : b ∈ next a) :
      ReachedIn next queue (k + 1) b

variable {pending queue : List β}

omit [DecidableEq β] in
theorem exists_reachedIn_iff {b : β} : (∃ k, ReachedIn next queue k b) ↔
    ∃ a ∈ queue, Relation.ReflTransGen (fun x y => y ∈ next x) a b := by
  constructor
  · rintro ⟨k, h⟩
    induction h with
    | queued h => exact ⟨_, h, .refl⟩
    | step _ hb ih =>
      obtain ⟨a, ha, hpath⟩ := ih
      exact ⟨a, ha, hpath.tail hb⟩
  · rintro ⟨a, ha, hpath⟩
    induction hpath with
    | refl => exact ⟨0, .queued ha⟩
    | tail _ hb ih =>
      obtain ⟨k, hk⟩ := ih
      exact ⟨k + 1, .step hk hb⟩

theorem disjoint_level (pending queue : List β) :
    (level next pending queue).1.Disjoint (level next pending queue).2 :=
  fun _ hentered hleft => (mem_enter_snd.mp hleft).1 (mem_enter_fst.mp hentered).1

theorem ReachedIn.of_level {k : Nat} {b : β}
    (h : ReachedIn next (level next pending queue).1 k b) : ReachedIn next queue (k + 1) b := by
  induction h with
  | queued hb =>
    obtain ⟨a, ha, hb⟩ := List.mem_flatMap.mp (mem_enter_fst.mp hb).1
    exact .step (.queued ha) hb
  | step _ hb ih => exact .step ih hb

/-- No step leads from what was visited to what is pending. -/
def Visited (next : β → List β) (pending queue : List β) : Prop :=
  ∀ a, a ∉ queue → a ∉ pending → ∀ b ∈ next a, b ∉ pending

theorem Visited.level (h : Visited next pending queue) :
    Visited next (level next pending queue).2 (level next pending queue).1 := by
  intro a hentered hleft b hb hpending
  obtain ⟨hnew, hpending⟩ := mem_enter_snd.mp hpending
  have hqueue : a ∉ queue := fun ha => hnew (List.mem_flatMap.mpr ⟨a, ha, hb⟩)
  have ha : a ∉ pending := by
    intro ha
    by_cases hmem : a ∈ queue.flatMap next
    · exact hentered (mem_enter_fst.mpr ⟨hmem, ha⟩)
    · exact hleft (mem_enter_snd.mpr ⟨hmem, ha⟩)
  exact h a hqueue ha b hb hpending

/-- From the next level fewer steps lead to what is pending. -/
theorem ReachedIn.level {k : Nat} {b : β} (h : ReachedIn next queue k b)
    (hvisited : Visited next pending queue) (hdisjoint : queue.Disjoint pending)
    (hb : b ∈ pending) : ∃ j < k, ReachedIn next (level next pending queue).1 j b := by
  induction h with
  | queued hq => exact absurd hb (hdisjoint hq)
  | @step k a b _ hstep ih =>
    -- A path that comes back to the queue is cut off there.
    by_cases ha : a ∈ queue
    · have hentered : b ∈ (Search.level next pending queue).1 :=
        mem_enter_fst.mpr ⟨List.mem_flatMap.mpr ⟨a, ha, hstep⟩, hb⟩
      exact ⟨0, Nat.succ_pos k, .queued hentered⟩
    · have hpending : a ∈ pending := by
        by_contra hp
        exact hvisited a ha hp b hstep hb
      obtain ⟨j, hj, hreached⟩ := ih hpending
      exact ⟨j + 1, Nat.succ_lt_succ hj, .step hreached hstep⟩

/-- However a value is reached, what is visited before it is reached in no more steps. -/
theorem pairwise_reach (hvisited : Visited next pending queue)
    (hdisjoint : queue.Disjoint pending) :
    (reach next pending queue).Pairwise fun a b =>
      ∀ k, ReachedIn next queue k b → ∃ j ≤ k, ReachedIn next queue j a := by
  -- The next level visits only what was pending, so what is left gets less with each level.
  induction hn : pending.length + queue.length using Nat.strong_induction_on
    generalizing pending queue with
  | _ n ih =>
    by_cases hq : queue = []
    · rw [hq, reach_nil]
      exact List.Pairwise.nil
    · have hlength : (Search.level next pending queue).2.length +
          (Search.level next pending queue).1.length < n := by
        have hentered := length_enter (queue.flatMap next) pending
        have hqueued := List.length_pos_iff.mpr hq
        rw [Search.level]
        omega
      have hrest := ih _ hlength hvisited.level (disjoint_level pending queue) rfl
      have hqueued : ∀ a ∈ queue, ∀ b k, ReachedIn next queue k b →
          ∃ j ≤ k, ReachedIn next queue j a :=
        fun a ha _ k _ => ⟨0, Nat.zero_le k, .queued ha⟩
      rw [reach_level, List.pairwise_append]
      refine ⟨List.pairwise_of_forall_mem_list fun a ha b _ => hqueued a ha b, ?_,
        fun a ha b _ => hqueued a ha b⟩
      refine hrest.imp_of_mem fun {a b} ha hb hab k hk => ?_
      have hpending : b ∈ pending := by
        rcases mem_of_mem_reach hb with hb | hb
        · exact (mem_enter_fst.mp hb).2
        · exact (mem_enter_snd.mp hb).2
      obtain ⟨j, hj, hb⟩ := hk.level hvisited hdisjoint hpending
      obtain ⟨i, hi, ha⟩ := hab j hb
      exact ⟨i + 1, Nat.lt_of_le_of_lt hi hj, ha.of_level⟩

end Search
end PromptCanvas
