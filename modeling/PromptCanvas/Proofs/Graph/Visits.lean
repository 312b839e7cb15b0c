import Mathlib.Data.Set.Function
import PromptCanvas.Proofs.Graph.Reachability

/-!
# The order of a breadth-first search

What the order of the visits depends on.  Three facts are used together.

* `reach_map`: a search whose steps are those of another under renamed values makes the same visits
  under the new names.  What is pending counts only where steps lead.
* `reach_filter_passing`: where only some values have steps, the order in which those are visited is
  that of a search among them alone.
* `reach_filter_leaves`: each class of the other values comes in the order in which the visited
  values lead to it, whatever else stands between.
-/

namespace PromptCanvas
namespace Search

variable {β γ : Type} [DecidableEq β] [DecidableEq γ]

/-! ## Entering -/

theorem enter_append (xs ys pending : List β) :
    (enter (xs ++ ys) pending).1 = (enter xs pending).1 ++ (enter ys (enter xs pending).2).1 := by
  induction xs generalizing pending with
  | nil => rfl
  | cons x xs ih =>
    by_cases hx : x ∈ pending
    · simp only [List.cons_append, enter, hx, if_true, ih]
    · simp only [List.cons_append, enter, hx, if_false, ih]

theorem enter_append_snd (xs ys pending : List β) :
    (enter (xs ++ ys) pending).2 = (enter ys (enter xs pending).2).2 := by
  induction xs generalizing pending with
  | nil => rfl
  | cons x xs ih =>
    by_cases hx : x ∈ pending
    · simp only [List.cons_append, enter, hx, if_true, ih]
    · simp only [List.cons_append, enter, hx, if_false, ih]

/-- The newcomers have the keys that a search enters which keeps what is pending instead of what it
has seen. -/
theorem enter_map_eq_newcomers {α : Type} {key : α → β} {seen pending : List β} {as : List α}
    (h : ∀ a ∈ as, key a ∈ pending ↔ key a ∉ seen) :
    (enter (as.map key) pending).1 = (newcomers key seen as).map key := by
  induction as generalizing seen pending with
  | nil => rfl
  | cons a rest ih =>
    have hrest : ∀ c ∈ rest, key c ∈ pending ↔ key c ∉ seen := fun c hc =>
      h c (List.mem_cons_of_mem a hc)
    by_cases ha : key a ∈ seen
    · have hp : key a ∉ pending := fun hp => (h a List.mem_cons_self).mp hp ha
      simp only [List.map_cons, enter, hp, if_false, newcomers, ha, if_true, ih hrest]
    · have hp : key a ∈ pending := (h a List.mem_cons_self).mpr ha
      have hleft : ∀ c ∈ rest, key c ∈ without (key a) pending ↔ key c ∉ seen ++ [key a] := by
        intro c hc
        rw [mem_without, hrest c hc, List.mem_append, List.mem_singleton, not_or]
      simp only [List.map_cons, enter, hp, if_true, newcomers, ha, if_false, ih hleft]

/-- A value that is not pending is as good as absent. -/
theorem enter_without {b : β} (bs : List β) {pending : List β} (hb : b ∉ pending) :
    enter (without b bs) pending = enter bs pending := by
  induction bs generalizing pending with
  | nil => rfl
  | cons c rest ih =>
    by_cases hc : c = b
    · have hdrop : without b (c :: rest) = without b rest := by simp [without, hc]
      have hcp : c ∉ pending := hc ▸ hb
      rw [hdrop, ih hb]
      simp only [enter, hcp, if_false]
    · have hkeep : without b (c :: rest) = c :: without b rest := by simp [without, hc]
      rw [hkeep]
      by_cases hp : c ∈ pending
      · have hb' : b ∉ without c pending := fun h => hb (mem_without.mp h).1
        simp only [enter, hp, if_true, ih hb']
      · simp only [enter, hp, if_false, ih hb]

/-- Under names that are told apart, the same values are entered. -/
theorem enter_map {f : β → γ} {s : Set β} (hf : Set.InjOn f s) {bs pending : List β}
    {pending' : List γ} (hbs : ∀ b ∈ bs, b ∈ s) (hp : ∀ b ∈ s, f b ∈ pending' ↔ b ∈ pending) :
    (enter (bs.map f) pending').1 = (enter bs pending).1.map f := by
  induction bs generalizing pending pending' with
  | nil => rfl
  | cons b rest ih =>
    have hb : b ∈ s := hbs b List.mem_cons_self
    have hrest : ∀ c ∈ rest, c ∈ s := fun c hc => hbs c (List.mem_cons_of_mem b hc)
    by_cases hin : b ∈ pending
    · have hin' : f b ∈ pending' := (hp b hb).mpr hin
      have hleft : ∀ c ∈ s, f c ∈ without (f b) pending' ↔ c ∈ without b pending := by
        intro c hc
        rw [mem_without, mem_without, hp c hc, hf.ne_iff hc hb]
      simp only [List.map_cons, enter, hin, hin', if_true, ih hrest hleft]
    · have hin' : f b ∉ pending' := fun h => hin ((hp b hb).mp h)
      simp only [List.map_cons, enter, hin, hin', if_false, ih hrest hp]

theorem mem_enter_map_snd {f : β → γ} {s : Set β} (hf : Set.InjOn f s) {bs pending : List β}
    {pending' : List γ} (hbs : ∀ b ∈ bs, b ∈ s) (hp : ∀ b ∈ s, f b ∈ pending' ↔ b ∈ pending)
    {b : β} (hb : b ∈ s) : f b ∈ (enter (bs.map f) pending').2 ↔ b ∈ (enter bs pending).2 := by
  have hmap : f b ∈ bs.map f ↔ b ∈ bs := by
    rw [List.mem_map]
    constructor
    · rintro ⟨c, hc, he⟩
      exact hf (hbs c hc) hb he ▸ hc
    · exact fun h => ⟨b, h, rfl⟩
  rw [mem_enter_snd, mem_enter_snd, hmap, hp b hb]

/-- What is entered of a class depends only on what is pending of it. -/
theorem enter_congr {p : β → Bool} {bs pending pending' : List β} (hbs : ∀ b ∈ bs, p b = true)
    (hp : ∀ b, p b = true → (b ∈ pending' ↔ b ∈ pending)) :
    (enter bs pending').1 = (enter bs pending).1 := by
  have h := enter_map (Set.injOn_id {b | p b = true}) hbs hp
  rwa [List.map_id, List.map_id] at h

theorem enter_filter (p : β → Bool) (bs pending : List β) :
    (enter (bs.filter p) pending).1 = (enter bs pending).1.filter p := by
  induction bs generalizing pending with
  | nil => rfl
  | cons b rest ih =>
    by_cases hb : p b = true
    · by_cases hin : b ∈ pending
      · simp only [List.filter_cons, hb, if_true, enter, hin, ih]
      · simp only [List.filter_cons, hb, if_true, enter, hin, if_false, ih]
    · by_cases hin : b ∈ pending
      · -- The value is entered but not of the class; nothing of the class stops being pending.
        have hkeep : ∀ c, p c = true → (c ∈ pending ↔ c ∈ without b pending) := by
          intro c hc
          rw [mem_without]
          exact ⟨fun h => ⟨h, fun e => hb (e ▸ hc)⟩, And.left⟩
        have hrest : ∀ c ∈ rest.filter p, p c = true := fun c hc => (List.mem_filter.mp hc).2
        simp only [List.filter_cons, hb, enter, hin, if_true]
        exact (enter_congr hrest hkeep).trans (ih (without b pending))
      · simp only [List.filter_cons, hb, enter, hin, if_false]
        exact ih pending

/-- Of a class, the steps into it leave pending what all steps leave. -/
theorem mem_enter_filter_snd {p : β → Bool} {b : β} (hb : p b = true) {bs pending : List β} :
    b ∈ (enter (bs.filter p) pending).2 ↔ b ∈ (enter bs pending).2 := by
  rw [mem_enter_snd, mem_enter_snd, List.mem_filter, and_iff_left hb]

/-! ## Visits under other names -/

theorem without_map {f : β → γ} {s : Set β} (hf : Set.InjOn f s) {b : β} (hb : b ∈ s)
    {bs : List β} (hbs : ∀ c ∈ bs, c ∈ s) : without (f b) (bs.map f) = (without b bs).map f := by
  rw [without, without, List.filter_map]
  refine congrArg (List.map f) (List.filter_congr fun c hc => ?_)
  exact decide_eq_decide.mpr (hf.ne_iff (hbs c hc) hb)

section Renamed

variable {next : β → List β} {next' : γ → List γ} {f : β → γ} {s : Set β}

/-- A search whose steps are renamed makes the same visits under the new names. -/
theorem reach_map (hf : Set.InjOn f s) (hclosed : ∀ b ∈ s, ∀ c ∈ next b, c ∈ s)
    (hnext : ∀ b ∈ s, next' (f b) = (next b).map f) {pending queue : List β}
    (hq : ∀ b ∈ queue, b ∈ s) : ∀ {pending' : List γ}, (∀ b ∈ s, f b ∈ pending' ↔ b ∈ pending) →
    reach next' pending' (queue.map f) = (reach next pending queue).map f := by
  -- The two pending rows agree on `s` before each visit, not as rows, so the second stays general.
  induction pending, queue using reach.induct next with
  | case1 pending =>
    intro pending' _
    rw [List.map_nil, reach_nil, reach_nil, List.map_nil]
  | case2 pending b queue step ih =>
    intro pending' hp
    have hb : b ∈ s := hq b List.mem_cons_self
    have hsteps : ∀ c ∈ next b, c ∈ s := hclosed b hb
    have hentered : (enter (next' (f b)) pending').1 = step.1.map f := by
      rw [hnext b hb]
      exact enter_map hf hsteps hp
    have hqueue : ∀ c ∈ queue ++ step.1, c ∈ s := by
      intro c hc
      rcases List.mem_append.mp hc with hc | hc
      · exact hq c (List.mem_cons_of_mem b hc)
      · exact hsteps c (mem_enter_fst.mp hc).1
    have hleft : ∀ c ∈ s, f c ∈ (enter (next' (f b)) pending').2 ↔ c ∈ step.2 := by
      intro c hc
      rw [hnext b hb]
      exact mem_enter_map_snd hf hsteps hp hc
    rw [List.map_cons, reach_cons, reach_cons, hentered, ← List.map_append, ih hqueue hleft,
      List.map_cons]

/-- A search that stays within a class depends only on what is pending of the class. -/
theorem reach_congr {p : β → Bool} (hclosed : ∀ b, ∀ c ∈ next b, p c = true)
    {pending pending' queue : List β} (hq : ∀ b ∈ queue, p b = true)
    (hp : ∀ b, p b = true → (b ∈ pending' ↔ b ∈ pending)) :
    reach next pending' queue = reach next pending queue := by
  have hnext : ∀ b ∈ {b | p b = true}, next (id b) = (next b).map id := by
    intro b _
    rw [List.map_id]
    rfl
  have h := reach_map (Set.injOn_id {b | p b = true}) (fun b _ => hclosed b) hnext hq hp
  rwa [List.map_id, List.map_id] at h

end Renamed

/-! ## Visits of a class -/

variable {next : β → List β}

/-- What is queued is visited before everything else. -/
theorem queue_prefix_reach (pending queue : List β) : queue <+: reach next pending queue := by
  induction pending, queue using reach.induct next with
  | case1 pending => exact List.nil_prefix
  | case2 pending b queue step ih =>
    rw [reach_cons]
    exact List.cons_prefix_cons.mpr ⟨rfl, (List.prefix_append queue step.1).trans ih⟩

/-- Only what is queued or pending is visited. -/
theorem mem_of_mem_reach {b : β} {pending queue : List β} (h : b ∈ reach next pending queue) :
    b ∈ queue ∨ b ∈ pending := by
  induction pending, queue using reach.induct next with
  | case1 pending => rw [reach_nil] at h; exact absurd h List.not_mem_nil
  | case2 pending c queue step ih =>
    rw [reach_cons] at h
    rcases List.mem_cons.mp h with rfl | hr
    · exact Or.inl List.mem_cons_self
    · rcases ih hr with hq | hp
      · rcases List.mem_append.mp hq with hq | hs
        · exact Or.inl (List.mem_cons_of_mem c hq)
        · exact Or.inr (mem_enter_fst.mp hs).2
      · exact Or.inr (mem_enter_snd.mp hp).2

theorem reach_cons_of_leaf {b : β} (hb : next b = []) (pending queue : List β) :
    reach next pending (b :: queue) = b :: reach next pending queue := by
  rw [reach_cons, hb]
  show b :: reach next pending (queue ++ []) = _
  rw [List.append_nil]

section Classes

variable {p q : β → Bool} (hleaf : ∀ b, p b = false → next b = [])
include hleaf

/-- The values that have steps are visited in the order of a search among them alone. -/
theorem reach_filter_passing (pending queue : List β) :
    (reach next pending queue).filter p =
      reach (fun b => (next b).filter p) pending (queue.filter p) := by
  induction pending, queue using reach.induct next with
  | case1 pending => rw [List.filter_nil, reach_nil, reach_nil, List.filter_nil]
  | case2 pending b queue step ih =>
    by_cases hb : p b = true
    · have hpending : ∀ c, p c = true →
          (c ∈ step.2 ↔ c ∈ (enter ((next b).filter p) pending).2) := fun c hc =>
        (mem_enter_filter_snd hc).symm
      rw [reach_cons, List.filter_cons_of_pos hb, List.filter_cons_of_pos hb, reach_cons,
        enter_filter, ih, ← List.filter_append]
      have hsteps : ∀ d, ∀ c ∈ (next d).filter p, p c = true := fun d c hc =>
        (List.mem_filter.mp hc).2
      have hqueue : ∀ c ∈ (queue ++ step.1).filter p, p c = true := fun c hc =>
        (List.mem_filter.mp hc).2
      exact congrArg (b :: ·) (reach_congr hsteps hqueue hpending)
    · have hnone : next b = [] := hleaf b (Bool.eq_false_iff.mpr hb)
      have hstep : step = ([], pending) := congrArg (enter · pending) hnone
      rw [hstep, List.append_nil] at ih
      rw [reach_cons_of_leaf hnone, List.filter_cons_of_neg hb, List.filter_cons_of_neg hb, ih]

/-- A class of values without steps comes in the order in which the visited values lead to it. -/
theorem reach_filter_leaves (hq : ∀ b, q b = true → p b = false) (pending queue : List β) :
    (reach next pending queue).filter q = queue.filter q ++
      (enter (((reach next pending queue).filter p).flatMap fun b => (next b).filter q)
        pending).1 := by
  induction pending, queue using reach.induct next with
  | case1 pending => simp [reach_nil, enter]
  | case2 pending b queue step ih =>
    by_cases hb : p b = true
    · have hbq : ¬ q b = true := fun h => by rw [hq b h] at hb; cases hb
      -- Of the class, the same is pending after all steps as after the steps into the class.
      have hpending : ∀ c, q c = true →
          (c ∈ step.2 ↔ c ∈ (enter ((next b).filter q) pending).2) := fun c hc =>
        (mem_enter_filter_snd hc).symm
      have hclass : ∀ c ∈ ((reach next step.2 (queue ++ step.1)).filter p).flatMap
          fun b => (next b).filter q, q c = true := by
        intro c hc
        obtain ⟨d, -, hd⟩ := List.mem_flatMap.mp hc
        exact (List.mem_filter.mp hd).2
      rw [reach_cons, List.filter_cons_of_neg hbq, List.filter_cons_of_neg hbq,
        List.filter_cons_of_pos hb, List.flatMap_cons, enter_append, enter_filter, ih,
        List.filter_append, List.append_assoc, enter_congr hclass hpending]
    · have hnone : next b = [] := hleaf b (Bool.eq_false_iff.mpr hb)
      have hstep : step = ([], pending) := congrArg (enter · pending) hnone
      rw [hstep, List.append_nil] at ih
      rw [reach_cons_of_leaf hnone, List.filter_cons_of_neg hb, List.filter_cons, List.filter_cons,
        ih]
      split <;> rfl

end Classes

end Search
end PromptCanvas
