import Mathlib.Data.List.Nodup
import Mathlib.Data.Prod.Lex
import Mathlib.Logic.Function.Basic
import PromptCanvas.Proofs.Library.Records

/-!
# Tables that are finite maps

`Lists` says that a list has every entry of a map once, and nothing else.  A row is put into a table
behind the others, after any row with its id was taken out; so the table goes on listing the map,
changed at that id.

A table of records that come back answers as its map does: looking for an id finds what the map has
there, and all records are found in the order of their ranks.
-/

namespace PromptCanvas

/-- The entries of a map, each listed once under its key. -/
structure Lists {β : Type} (key : β → String) (bs : List β) (m : String → Option β) : Prop where
  nodup : (bs.map key).Nodup
  find : ∀ id, bs.find? (key · == id) = m id

namespace Lists

variable {β : Type} {key : β → String} {bs : List β} {m : String → Option β}

theorem nil : Lists key [] fun _ => none := ⟨List.nodup_nil, fun _ => rfl⟩

theorem mem_iff (h : Lists key bs m) {b : β} : b ∈ bs ↔ m (key b) = some b := by
  rw [← h.find]
  refine ⟨fun hb => ?_, List.mem_of_find?_eq_some⟩
  have hnodup := h.nodup
  clear h
  induction bs with
  | nil => exact absurd hb List.not_mem_nil
  | cons c rest ih =>
    obtain ⟨hnew, hrest⟩ := List.nodup_cons.mp hnodup
    rcases List.mem_cons.mp hb with rfl | hb
    · exact List.find?_cons_of_pos (beq_self_eq_true _)
    · have hne : key c ≠ key b := fun heq => hnew (heq ▸ List.mem_map_of_mem hb)
      rw [List.find?_cons_of_neg (by simpa using hne)]
      exact ih hb hrest

theorem key_eq (h : Lists key bs m) {id : String} {b : β} (hb : m id = some b) : key b = id := by
  rw [← h.find] at hb
  have hkey := List.find?_some hb
  exact eq_of_beq hkey

theorem any_eq (h : Lists key bs m) (id : String) : bs.any (key · == id) = (m id).isSome := by
  rw [← h.find, List.isSome_find?]

theorem erase (h : Lists key bs m) (id : String) :
    Lists key (bs.filter (key · != id)) (Function.update m id none) where
  nodup := h.nodup.sublist (List.filter_sublist.map key)
  find := by
    intro id'
    rw [List.find?_filter]
    by_cases heq : id' = id
    · subst heq
      rw [Function.update_self, List.find?_eq_none]
      simp
    · rw [Function.update_of_ne heq, ← h.find]
      congr 1
      funext b
      by_cases hb : key b = id'
      · simp [hb, heq]
      · simp [hb]

theorem insert (h : Lists key bs m) (b : β) :
    Lists key (bs.filter (key · != key b) ++ [b]) (Function.update m (key b) (some b)) where
  nodup := by
    rw [List.map_append, List.map_singleton]
    refine List.Nodup.append (h.erase (key b)).nodup (List.nodup_singleton _) ?_
    intro id hid hb
    obtain ⟨c, hc, rfl⟩ := List.mem_map.mp hid
    rw [List.mem_singleton] at hb
    simpa [hb] using (List.mem_filter.mp hc).2
  find := by
    intro id
    rw [List.find?_append, (h.erase (key b)).find]
    by_cases heq : id = key b
    · subst heq
      simp
    · simp [Function.update_of_ne heq, Ne.symm heq]

end Lists

/-! ## Lists in the order of ranks -/

section Sorted

variable {β γ : Type} [LinearOrder γ] (rank : β → γ)

/-- The list in the order of ranks. -/
def sortedBy (bs : List β) : List β := bs.mergeSort fun a b => decide (rank a ≤ rank b)

theorem perm_sortedBy (bs : List β) : (sortedBy rank bs).Perm bs := List.mergeSort_perm _ _

/-- Records of distinct ranks are listed in strict order. -/
theorem pairwise_sortedBy {bs : List β} (h : (bs.map rank).Nodup) :
    (sortedBy rank bs).Pairwise fun a b => rank a < rank b := by
  have hle : (sortedBy rank bs).Pairwise fun a b => rank a ≤ rank b := by
    refine (List.pairwise_mergeSort ?_ ?_ bs).imp fun hab => of_decide_eq_true hab
    · intro a b c hab hbc
      exact decide_eq_true (le_trans (of_decide_eq_true hab) (of_decide_eq_true hbc))
    · intro a b
      simpa using le_total (rank a) (rank b)
  have hne : (sortedBy rank bs).Pairwise fun a b => rank a ≠ rank b := by
    have hnodup := ((perm_sortedBy rank bs).map rank).nodup_iff.mpr h
    exact List.pairwise_map.mp hnodup
  exact (hle.and hne).imp fun hab => lt_of_le_of_ne hab.1 hab.2

end Sorted

/-! ## Tables of records -/

open Record

theorem Payload.records_eq_ok {β : Type} {r : Reading β} {payload : β → Payload} {bs : List β}
    (h : ∀ b ∈ bs, (payload b).record? listedDepthLimit r = .ok (some b)) :
    records r (bs.map payload) = .ok bs := by
  have hall : (bs.map payload).mapM (record? listedDepthLimit r) = .ok (bs.map some) := by
    induction bs with
    | nil => rfl
    | cons b bs ih =>
      obtain ⟨hb, hbs⟩ := List.forall_mem_cons.mp h
      rw [List.map_cons, List.mapM_cons, hb, ih hbs]
      rfl
  rw [records, hall]
  simp [Except.map]

/-- How records of a kind are kept as rows of a table: a row has the record's key as its id and
comes back from its payload, and rows are sorted by the rank of their records, which tells keys
apart. -/
structure Table (ρ β γ : Type) [LinearOrder γ] where
  row : β → ρ
  id : ρ → String
  payload : ρ → Payload
  precedes : ρ → ρ → Bool
  read : Reading β
  key : β → String
  rank : β → γ
  Sound : β → Prop
  id_row : ∀ b, id (row b) = key b
  found : ∀ b, Sound b → (payload (row b)).record? Payload.depthLimit read = .ok (some b)
  listed : ∀ b, Sound b → (payload (row b)).record? Payload.listedDepthLimit read = .ok (some b)
  precedes_row : ∀ a b, Sound a → Sound b → (precedes (row a) (row b) = true ↔ rank a ≤ rank b)
  key_eq : ∀ a b, Sound a → Sound b → rank a = rank b → key a = key b

namespace Table

variable {ρ β γ : Type} [LinearOrder γ] {t : Table ρ β γ} {rows : List ρ} {m : String → Option β}

/-- The rows are those of sound records, and these are listed by the map. -/
def Holds (t : Table ρ β γ) (rows : List ρ) (m : String → Option β) : Prop :=
  ∃ bs, rows = bs.map t.row ∧ Lists t.key bs m ∧ ∀ b ∈ bs, t.Sound b

theorem holds_nil : t.Holds [] fun _ => none :=
  ⟨[], rfl, .nil, fun _ hb => absurd hb List.not_mem_nil⟩

theorem filter_map_row (t : Table ρ β γ) (bs : List β) (id : String) :
    (bs.map t.row).filter (t.id · != id) = (bs.filter (t.key · != id)).map t.row := by
  rw [List.filter_map]
  congr 2
  funext b
  rw [Function.comp_apply, t.id_row]

theorem Holds.erase (h : t.Holds rows m) (id : String) :
    t.Holds (rows.filter (t.id · != id)) (Function.update m id none) := by
  obtain ⟨bs, rfl, hlists, hsound⟩ := h
  exact ⟨_, t.filter_map_row bs id, hlists.erase id, fun b hb => hsound b (List.mem_filter.mp hb).1⟩

theorem Holds.insert (h : t.Holds rows m) {b : β} (hb : t.Sound b) :
    t.Holds (rows.filter (t.id · != t.key b) ++ [t.row b])
      (Function.update m (t.key b) (some b)) := by
  obtain ⟨bs, rfl, hlists, hsound⟩ := h
  refine ⟨_, ?_, hlists.insert b, fun c hc => ?_⟩
  · rw [t.filter_map_row, List.map_append, List.map_singleton]
  · rcases List.mem_append.mp hc with hc | hc
    · exact hsound c (List.mem_filter.mp hc).1
    · exact List.mem_singleton.mp hc ▸ hb

theorem Holds.any_eq (h : t.Holds rows m) (id : String) :
    rows.any (t.id · == id) = (m id).isSome := by
  obtain ⟨bs, rfl, hlists, -⟩ := h
  rw [← hlists.any_eq, List.any_map]
  congr 1
  funext b
  rw [Function.comp_apply, t.id_row]

/-- Looking for an id finds what the map has there. -/
theorem Holds.found?_eq (h : t.Holds rows m) (id : String) :
    Payload.found? t.read ((rows.find? (t.id · == id)).map t.payload) = .ok (m id) := by
  obtain ⟨bs, rfl, hlists, hsound⟩ := h
  have hfind : (bs.map t.row).find? (t.id · == id) = (m id).map t.row := by
    rw [List.find?_map, ← hlists.find]
    congr 2
    funext b
    rw [Function.comp_apply, t.id_row]
  rw [hfind]
  cases hm : m id with
  | none => rfl
  | some b =>
    rw [← hlists.find] at hm
    exact t.found b (hsound b (List.mem_of_find?_eq_some hm))

/-- All records are found, each once, in the order of their ranks. -/
theorem Holds.records_eq (h : t.Holds rows m) :
    ∃ bs, Payload.records t.read ((rows.mergeSort t.precedes).map t.payload) = .ok bs ∧
      bs.Pairwise (fun a b => t.rank a < t.rank b) ∧ ∀ b, b ∈ bs ↔ m (t.key b) = some b := by
  obtain ⟨bs, rfl, hlists, hsound⟩ := h
  have hsort : (bs.map t.row).mergeSort t.precedes = (sortedBy t.rank bs).map t.row := by
    refine (List.map_mergeSort fun a ha b hb => ?_).symm
    rw [Bool.eq_iff_iff, decide_eq_true_iff, t.precedes_row a b (hsound a ha) (hsound b hb)]
  have hmem : ∀ b, b ∈ sortedBy t.rank bs ↔ b ∈ bs := fun b => (perm_sortedBy t.rank bs).mem_iff
  have hranks : (bs.map t.rank).Nodup := by
    have hkeys : bs.Pairwise fun a b => t.key a ≠ t.key b := List.pairwise_map.mp hlists.nodup
    refine List.pairwise_map.mpr (hkeys.imp_of_mem fun ha hb hne heq => hne ?_)
    exact t.key_eq _ _ (hsound _ ha) (hsound _ hb) heq
  refine ⟨sortedBy t.rank bs, ?_, pairwise_sortedBy t.rank hranks, fun b => ?_⟩
  · rw [hsort, List.map_map]
    exact Payload.records_eq_ok fun b hb => t.listed b (hsound b ((hmem b).mp hb))
  · rw [hmem, hlists.mem_iff]

end Table
end PromptCanvas
