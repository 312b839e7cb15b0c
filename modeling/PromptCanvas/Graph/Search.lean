/-!
# Breadth-first search

`reach next pending queue` visits what can be reached from the queue by steps of `next`, nearest
first.  Only pending values are entered, each at most once; that bounds the walk.

A search that keeps what it has seen instead takes the `newcomers` of each step.  It ends because
of all values that there are, fewer remain to be seen after each newcomer.
-/

namespace PromptCanvas
namespace Search

section

variable {β γ : Type} [DecidableEq γ]

/-- The values whose keys have not been seen, the first of each key. -/
def newcomers (key : β → γ) (seen : List γ) : List β → List β
  | [] => []
  | b :: rest =>
    if key b ∈ seen then newcomers key seen rest
    else b :: newcomers key (seen ++ [key b]) rest

/-- What remains to be seen. -/
def remaining (all seen : List γ) : List γ := all.filter (· ∉ seen)

end

variable {β : Type} [DecidableEq β]

/-- Drops a value wherever it stands. -/
def without (b : β) (bs : List β) : List β := bs.filter (· ≠ b)

theorem length_without_lt {b : β} {bs : List β} (h : b ∈ bs) :
    (without b bs).length < bs.length := by
  induction bs with
  | nil => simp at h
  | cons c rest ih =>
    by_cases hc : c = b
    · have := List.length_filter_le (fun x => decide (x ≠ b)) rest
      simp [without, hc] at *; omega
    · have := ih (by simpa [Ne.symm hc] using h)
      simp [without, hc] at *; omega

theorem remaining_append_singleton (all seen : List β) (b : β) :
    remaining all (seen ++ [b]) = without b (remaining all seen) := by
  rw [remaining, remaining, without, List.filter_filter]
  refine List.filter_congr fun c _ => ?_
  simp [and_comm]

/-- Each newcomer is one less that remains to be seen. -/
theorem length_newcomers {α : Type} (key : α → β) {all : List β} (seen : List β) {bs : List α}
    (h : ∀ b ∈ bs, key b ∈ all) :
    (remaining all (seen ++ (newcomers key seen bs).map key)).length +
      (newcomers key seen bs).length ≤ (remaining all seen).length := by
  induction bs generalizing seen with
  | nil => simp [newcomers]
  | cons b rest ih =>
    have hrest : ∀ c ∈ rest, key c ∈ all := fun c hc => h c (List.mem_cons_of_mem b hc)
    by_cases hb : key b ∈ seen
    · simpa only [newcomers, hb, if_true] using ih seen hrest
    · have hremains : key b ∈ remaining all seen := by
        rw [remaining, List.mem_filter, decide_eq_true_eq]
        exact ⟨h b List.mem_cons_self, hb⟩
      have h₁ := length_without_lt hremains
      have h₂ := ih (seen ++ [key b]) hrest
      rw [remaining_append_singleton, List.append_assoc] at h₂
      simp only [newcomers, hb, if_false, List.map_cons, List.length_cons]
      simp only [List.singleton_append] at h₂
      omega

/-- The first occurrences of pending values in a list, in its order, and what stays pending. -/
def enter : List β → List β → List β × List β
  | [], pending => ([], pending)
  | b :: rest, pending =>
    if b ∈ pending then
      let (entered, left) := enter rest (without b pending)
      (b :: entered, left)
    else enter rest pending

theorem length_enter (bs pending : List β) :
    (enter bs pending).2.length + (enter bs pending).1.length ≤ pending.length := by
  induction bs generalizing pending with
  | nil => simp [enter]
  | cons b rest ih =>
    by_cases h : b ∈ pending
    · have h₁ := length_without_lt h
      have h₂ := ih (without b pending)
      simp only [enter, h, if_true, List.length_cons]; omega
    · simpa only [enter, h, if_false] using ih pending

/-- What is reached from the queue, the queue included, in the order of the visits. -/
def reach (next : β → List β) (pending : List β) : List β → List β
  | [] => []
  | b :: queue =>
    let step := enter (next b) pending
    b :: reach next step.2 (queue ++ step.1)
termination_by queue => pending.length + queue.length
decreasing_by
  have := length_enter (next b) pending
  simp only [List.length_append, List.length_cons]; omega

end Search
end PromptCanvas
