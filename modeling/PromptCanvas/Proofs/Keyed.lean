import Mathlib.Data.List.Nodup
import PromptCanvas.Keyed

/-!
# What a keyed list holds

Which value a key has after entries were set one after the other, and which keys there are.  The
later of two values of one key counts, so a list of changes may be gathered before it is laid over
another.
-/

namespace PromptCanvas
namespace Keyed

variable {κ β γ : Type} [BEq κ] [LawfulBEq κ]

theorem find?_eq_none_iff {k : κ} {m : List (κ × β)} : find? k m = none ↔ k ∉ keys m := by
  induction m with
  | nil => simp [find?, keys]
  | cons e rest ih =>
    obtain ⟨k', v⟩ := e
    rw [keys, List.map_cons, List.mem_cons, not_or]
    by_cases h : k' = k
    · simp [find?, h]
    · rw [find?, if_neg (by simpa using h), ih]
      exact ⟨fun hk => ⟨Ne.symm h, hk⟩, fun hk => hk.2⟩

theorem exists_find?_iff {k : κ} {m : List (κ × β)} : (∃ v, find? k m = some v) ↔ k ∈ keys m := by
  rw [← Option.isSome_iff_exists, ← not_iff_not, ← find?_eq_none_iff, Option.not_isSome_iff_eq_none]

/-- Where keys are distinct, every entry is found. -/
theorem find?_eq_some_iff {m : List (κ × β)} (h : (keys m).Nodup) {k : κ} {v : β} :
    find? k m = some v ↔ (k, v) ∈ m := by
  refine ⟨mem_of_find?, fun hmem => ?_⟩
  induction m with
  | nil => exact absurd hmem List.not_mem_nil
  | cons e rest ih =>
    obtain ⟨k', v'⟩ := e
    obtain ⟨hnew, hrest⟩ := List.nodup_cons.mp h
    rcases List.mem_cons.mp hmem with heq | hmem
    · cases heq
      rw [find?, if_pos (beq_self_eq_true k)]
    · have hne : k' ≠ k := fun hk => hnew (List.mem_map.mpr ⟨(k, v), hmem, hk.symm⟩)
      rw [find?, if_neg (by simpa using hne), ih hrest hmem]

/-! ## Setting one key -/

theorem find?_set (k k' : κ) (v : β) (m : List (κ × β)) :
    find? k' (set k v m) = (find? k' [(k, v)]).or (find? k' m) := by
  by_cases h : k = k'
  · subst h
    rw [find?_set_self, find?, if_pos (beq_self_eq_true k), Option.some_or]
  · rw [find?_set_ne (Ne.symm h), find?, if_neg (by simpa using h), find?, Option.none_or]

theorem mem_keys_set {k k' : κ} {v : β} {m : List (κ × β)} :
    k' ∈ keys (set k v m) ↔ k' = k ∨ k' ∈ keys m := by
  rw [← exists_find?_iff, ← exists_find?_iff, find?_set]
  by_cases h : k = k'
  · simp [find?, h]
  · simp [find?, h, Ne.symm h]

theorem nodup_keys_set {m : List (κ × β)} (h : (keys m).Nodup) (k : κ) (v : β) :
    (keys (set k v m)).Nodup := by
  induction m with
  | nil => exact List.nodup_singleton k
  | cons e rest ih =>
    obtain ⟨k', v'⟩ := e
    obtain ⟨hnew, hrest⟩ := List.nodup_cons.mp h
    by_cases hk : k' = k
    · rw [set, if_pos (by simpa using hk)]
      exact List.nodup_cons.mpr ⟨hnew, hrest⟩
    · rw [set, if_neg (by simpa using hk)]
      refine List.nodup_cons.mpr ⟨fun hmem => ?_, ih hrest⟩
      exact (mem_keys_set.mp hmem).elim hk hnew

theorem set_of_not_mem {k : κ} {m : List (κ × β)} (h : k ∉ keys m) (v : β) :
    set k v m = m ++ [(k, v)] := by
  induction m with
  | nil => rfl
  | cons e rest ih =>
    obtain ⟨k', v'⟩ := e
    rw [keys, List.map_cons, List.mem_cons, not_or] at h
    rw [set, if_neg (by simpa using Ne.symm h.1), ih h.2, List.cons_append]

/-! ## Laying changes over a keyed list -/

/-- What the changes say of a key counts, else what was there. -/
theorem find?_update (m changes : List (κ × β)) (k : κ) :
    find? k (update m changes) = (find? k (ofList changes)).or (find? k m) := by
  induction changes generalizing m with
  | nil => rfl
  | cons e rest ih =>
    obtain ⟨k', v⟩ := e
    have hstep : ∀ m : List (κ × β), update m ((k', v) :: rest) = update (set k' v m) rest :=
      fun _ => rfl
    rw [ofList, hstep, hstep, ih, ih, find?_set, find?_set, find?, Option.or_none, Option.or_assoc]

theorem mem_keys_update {m changes : List (κ × β)} {k : κ} :
    k ∈ keys (update m changes) ↔ k ∈ keys changes ∨ k ∈ keys m := by
  induction changes generalizing m with
  | nil => simp [update, keys]
  | cons e rest ih =>
    obtain ⟨k', v⟩ := e
    show k ∈ keys (update (set k' v m) rest) ↔ k ∈ k' :: keys rest ∨ k ∈ keys m
    rw [ih, mem_keys_set, List.mem_cons, or_left_comm, or_assoc]

theorem mem_keys_ofList {entries : List (κ × β)} {k : κ} :
    k ∈ keys (ofList entries) ↔ k ∈ keys entries := by
  rw [ofList, mem_keys_update]
  exact or_iff_left List.not_mem_nil

theorem nodup_keys_ofList (entries : List (κ × β)) : (keys (ofList entries)).Nodup := by
  have hupdate : ∀ changes m : List (κ × β), (keys m).Nodup →
      (keys (update m changes)).Nodup := by
    intro changes
    induction changes with
    | nil => exact fun m hm => hm
    | cons e rest ih => exact fun m hm => ih _ (nodup_keys_set hm e.1 e.2)
  exact hupdate entries [] List.nodup_nil

theorem update_of_nodup {m changes : List (κ × β)} (h : (keys (m ++ changes)).Nodup) :
    update m changes = m ++ changes := by
  induction changes generalizing m with
  | nil => rw [List.append_nil]; rfl
  | cons e rest ih =>
    obtain ⟨k, v⟩ := e
    have hnew : k ∉ keys m := by
      rw [keys, List.map_append, List.map_cons] at h
      exact fun hk => List.disjoint_of_nodup_append h hk List.mem_cons_self
    show update (set k v m) rest = _
    rw [set_of_not_mem hnew, ih (by rwa [List.append_assoc]), List.append_assoc]
    rfl

/-- Entries with distinct keys are a keyed list as they stand. -/
theorem ofList_of_nodup {m : List (κ × β)} (h : (keys m).Nodup) : ofList m = m :=
  update_of_nodup h

theorem find?_ofList_of_nodup {m : List (κ × β)} (h : (keys m).Nodup) (k : κ) :
    find? k (ofList m) = find? k m := by
  rw [ofList_of_nodup h]

omit [LawfulBEq κ] in
theorem find?_map_snd (f : β → γ) (m : List (κ × β)) (k : κ) :
    find? k (m.map fun e => (e.1, f e.2)) = (find? k m).map f := by
  induction m with
  | nil => rfl
  | cons e rest ih =>
    obtain ⟨k', v⟩ := e
    rw [List.map_cons, find?, find?]
    split
    · rfl
    · exact ih

/-- Of the values that are listed by their keys, the last one with a key is found. -/
theorem find?_ofList_map (key : β → κ) (value : β → γ) (bs : List β) (k : κ) :
    find? k (ofList (bs.map fun b => (key b, value b))) =
      (bs.findRev? (key · == k)).map value := by
  induction bs with
  | nil => rfl
  | cons b rest ih =>
    show find? k (update [(key b, value b)] (rest.map fun b => (key b, value b))) = _
    rw [find?_update, ih, List.findRev?_eq_find?_reverse, List.findRev?_eq_find?_reverse,
      List.reverse_cons, List.find?_append, Option.map_or]
    congr 1
    rw [find?, find?, List.find?_cons, List.find?_nil]
    cases key b == k <;> rfl

theorem mem_of_find?_ofList {entries : List (κ × β)} {k : κ} {v : β}
    (h : find? k (ofList entries) = some v) : (k, v) ∈ entries := by
  have hlast := find?_ofList_map (Prod.fst (α := κ) (β := β)) Prod.snd entries k
  rw [show (entries.map fun e => (e.1, e.2)) = entries from List.map_id entries, h] at hlast
  obtain ⟨e, he, hv⟩ := Option.map_eq_some_iff.mp hlast.symm
  rw [List.findRev?_eq_find?_reverse] at he
  have hk := List.find?_some he
  rw [← eq_of_beq hk, ← hv]
  exact List.mem_reverse.mp (List.mem_of_find?_eq_some he)

/-- Of two rows of entries, the second counts first. -/
theorem find?_ofList_append (entries later : List (κ × β)) (k : κ) :
    find? k (ofList (entries ++ later)) = (find? k (ofList later)).or (find? k (ofList entries)) := by
  have hsplit : ofList (entries ++ later) = update (ofList entries) later :=
    List.foldl_append
  rw [hsplit, find?_update]

end Keyed
end PromptCanvas
