/-!
# Keyed lists

A finite map that remembers the order in which its keys first appeared: setting a key that is
present replaces its value where it stands, and a new key goes to the end.
-/

namespace PromptCanvas
namespace Keyed

variable {κ β : Type} [BEq κ]

/-- The value of a key. -/
def find? (k : κ) : List (κ × β) → Option β
  | [] => none
  | (k', v) :: rest => if k' == k then some v else find? k rest

/-- Sets the value of a key. -/
def set (k : κ) (v : β) : List (κ × β) → List (κ × β)
  | [] => [(k, v)]
  | (k', v') :: rest => if k' == k then (k', v) :: rest else (k', v') :: set k v rest

/-- Sets the second list's keys in the first, one after the other. -/
def update (m : List (κ × β)) (changes : List (κ × β)) : List (κ × β) :=
  changes.foldl (fun m (k, v) => set k v m) m

/-- The map that a list of entries builds; the last value given for a key is its value. -/
def ofList (entries : List (κ × β)) : List (κ × β) := update [] entries

/-- Drops a key. -/
def erase (k : κ) (m : List (κ × β)) : List (κ × β) := m.filter fun (k', _) => !(k' == k)

def keys (m : List (κ × β)) : List κ := m.map Prod.fst

theorem find?_set_self [LawfulBEq κ] (k : κ) (v : β) (m : List (κ × β)) :
    find? k (set k v m) = some v := by
  induction m with
  | nil => simp [set, find?]
  | cons e rest ih =>
    obtain ⟨k', v'⟩ := e
    by_cases h : k' == k
    · simp [set, find?, h]
    · simp [set, find?, h, ih]

theorem find?_set_ne [LawfulBEq κ] {k k' : κ} (h : k' ≠ k) (v : β) (m : List (κ × β)) :
    find? k' (set k v m) = find? k' m := by
  induction m with
  | nil => simp [set, find?, Ne.symm h]
  | cons e rest ih =>
    obtain ⟨j, w⟩ := e
    by_cases hj : j == k
    · have hjk : j = k := eq_of_beq hj
      subst hjk
      simp [set, find?, Ne.symm h]
    · by_cases hk : j == k' <;> simp [set, find?, hj, hk, ih]

theorem find?_append_of_not_mem [LawfulBEq κ] {k : κ} {m m' : List (κ × β)}
    (h : k ∉ m.map Prod.fst) : find? k (m ++ m') = find? k m' := by
  induction m with
  | nil => rfl
  | cons e rest ih =>
    obtain ⟨k', v⟩ := e
    simp only [List.map_cons, List.mem_cons, not_or] at h
    rw [List.cons_append, find?, if_neg (fun hk => h.1 (eq_of_beq hk).symm), ih h.2]

theorem mem_of_find? [LawfulBEq κ] {k : κ} {v : β} {m : List (κ × β)} (h : find? k m = some v) :
    (k, v) ∈ m := by
  induction m with
  | nil => simp [find?] at h
  | cons e rest ih =>
    obtain ⟨k', v'⟩ := e
    by_cases hk : k' == k
    · simp only [find?, hk, if_true, Option.some.injEq] at h
      rw [eq_of_beq hk, h]
      exact List.mem_cons_self
    · simp only [find?, hk] at h
      exact List.mem_cons_of_mem _ (ih h)

end Keyed
end PromptCanvas
