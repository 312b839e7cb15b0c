import Mathlib.Data.List.Perm.Subperm
import PromptCanvas.Proofs.View.Columns

/-!
# The waves of a single seed

On each level of a pass with a single seed all that pushes stands in one column, so the level is a
wave: what it reaches goes to the next column at once, and what it does not reach stays.  Two nodes
that come into one column with a row in common push each other to the last level.  Where that never
happens each node is pushed at most once, so that a pass with fewer nodes than levels comes to rest.
-/

namespace PromptCanvas

/-- Some row goes through both. -/
def Rect.SharesRow (r q : Rect Rat) : Prop := r.y < q.bottom ∧ q.y < r.bottom

namespace Collision

/-- What pushes on a level of a pass: first the seeds, then what the level before it pushed. -/
def wave (gap : Rat) (seeds current : Rects Rat) (k : Nat) : Rects Rat :=
  ((advance gap)^[k] (seeds, current)).1

/-- Where the obstacles stand before a level. -/
def placed (gap : Rat) (seeds current : Rects Rat) (k : Nat) : Rects Rat :=
  ((advance gap)^[k] (seeds, current)).2

theorem wave_succ (gap : Rat) (seeds current : Rects Rat) (k : Nat) :
    wave gap seeds current (k + 1) =
      (level gap (wave gap seeds current k) (placed gap seeds current k)).2 := by
  rw [wave, Function.iterate_succ_apply']
  rfl

theorem placed_succ (gap : Rat) (seeds current : Rects Rat) (k : Nat) :
    placed gap seeds current (k + 1) =
      (level gap (wave gap seeds current k) (placed gap seeds current k)).1 := by
  rw [placed, Function.iterate_succ_apply']
  rfl

theorem keys_placed (gap : Rat) (seeds current : Rects Rat) (k : Nat) :
    Keyed.keys (placed gap seeds current k) = Keyed.keys current := by
  induction k with
  | zero => rfl
  | succ k ih => rw [placed_succ, keys_level_fst, ih]

/-! ## A level whose pushers end in one place -/

/-- An entry moved to a column. -/
def landed (x : Rat) (e : String × Rect Rat) : String × Rect Rat := (e.1, e.2.movedTo x e.2.y)

/-- Some pusher reaches an entry. -/
def Reached (pushers : Rects Rat) (e : String × Rect Rat) : Prop := ∃ p ∈ pushers, hits p e = true

theorem reached_cons {p : String × Rect Rat} {rest : Rects Rat} (r : String × Rect Rat) :
    Reached (p :: rest) r ↔ hits p r = true ∨ Reached rest r := by
  simp only [Reached, List.mem_cons, exists_eq_or_imp]

theorem exists_reached_cons {x : Rat} {p : String × Rect Rat} {rest current : Rects Rat}
    (e : String × Rect Rat) :
    (∃ r ∈ current, Reached (p :: rest) r ∧ e = landed x r) ↔
      (∃ r ∈ current, hits p r = true ∧ e = landed x r) ∨
        ∃ r ∈ current, ¬ hits p r = true ∧ Reached rest r ∧ e = landed x r := by
  rw [← exists_or]
  refine exists_congr fun r => ?_
  rw [reached_cons]
  by_cases hhit : hits p r = true <;> simp [hhit]

section Aligned

variable {gap x : Rat} (hgap : 0 ≤ gap)
include hgap

theorem not_reached_landed {pushers : Rects Rat} (h : ∀ p ∈ pushers, p.2.right + gap = x)
    (e : String × Rect Rat) : ¬ Reached pushers (landed x e) := by
  rintro ⟨p, hp, hhit⟩
  refine Rect.not_overlaps_of_right_le ?_ (hits_iff.mp hhit).2
  show p.2.right ≤ x
  linarith [h p hp]

section Push

variable {p : String × Rect Rat} (hp : p.2.right + gap = x) {rest : Rects Rat}
  (hrest : ∀ q ∈ rest, q.2.right + gap = x) {current : Rects Rat} (e : String × Rect Rat)
include hp hrest

/-- What one push moved is out of the reach of the others, so it moves only once. -/
theorem exists_reached_afterPush :
    (∃ r ∈ afterPush gap p current, Reached rest r ∧ e = landed x r) ↔
      ∃ r ∈ current, ¬ hits p r = true ∧ Reached rest r ∧ e = landed x r := by
  subst hp
  constructor
  · rintro ⟨r, hr, hreach, rfl⟩
    rcases mem_afterPush.mp hr with ⟨q, -, -, rfl⟩ | ⟨hmem, hmiss⟩
    · exact absurd hreach (not_reached_landed hgap hrest q)
    · exact ⟨r, hmem, hmiss, hreach, rfl⟩
  · rintro ⟨r, hmem, hmiss, hreach, rfl⟩
    exact ⟨r, mem_afterPush.mpr (Or.inr ⟨hmem, hmiss⟩), hreach, rfl⟩

theorem mem_afterPush_not_reached :
    e ∈ afterPush gap p current ∧ ¬ Reached rest e ↔
      (∃ r ∈ current, hits p r = true ∧ e = landed x r) ∨
        (e ∈ current ∧ ¬ Reached (p :: rest) e) := by
  subst hp
  rw [mem_afterPush, or_and_right, reached_cons, not_or, and_assoc]
  refine or_congr_left ⟨And.left, fun hmoved => ⟨hmoved, ?_⟩⟩
  obtain ⟨r, -, -, rfl⟩ := hmoved
  exact not_reached_landed hgap hrest r

end Push

/-- What the pushers of a level reach goes to their column, each once; the rest stays. -/
theorem mem_level {pushers current : Rects Rat} (h : ∀ p ∈ pushers, p.2.right + gap = x)
    (e : String × Rect Rat) :
    (e ∈ (level gap pushers current).2 ↔ ∃ r ∈ current, Reached pushers r ∧ e = landed x r) ∧
      (e ∈ (level gap pushers current).1 ↔
        (∃ r ∈ current, Reached pushers r ∧ e = landed x r) ∨
          (e ∈ current ∧ ¬ Reached pushers e)) := by
  induction pushers generalizing current with
  | nil => simp [level, Reached]
  | cons p rest ih =>
    have hp : p.2.right + gap = x := h p List.mem_cons_self
    have hrest : ∀ q ∈ rest, q.2.right + gap = x := fun q hq => h q (.tail p hq)
    have hfirst : e ∈ pushedBy gap p current ↔
        ∃ r ∈ current, hits p r = true ∧ e = landed x r := by
      subst hp
      exact mem_pushedBy
    obtain ⟨hsnd, hfst⟩ := @ih (afterPush gap p current) hrest
    constructor
    · show e ∈ pushedBy gap p current ++ (level gap rest (afterPush gap p current)).2 ↔ _
      rw [List.mem_append, hfirst, hsnd, exists_reached_afterPush hgap hp hrest,
        exists_reached_cons]
    · show e ∈ (level gap rest (afterPush gap p current)).1 ↔ _
      rw [hfst, exists_reached_afterPush hgap hp hrest, mem_afterPush_not_reached hgap hp hrest,
        exists_reached_cons]
      exact or_left_comm.trans or_assoc.symm

end Aligned

/-! ## The pass of a single seed -/

/-- Two that push on a level share a row. -/
def Twins (pushers : Rects Rat) : Prop :=
  ∃ e ∈ pushers, ∃ f ∈ pushers, e.1 ≠ f.1 ∧ e.2.SharesRow f.2

section Single

variable {m : Metrics Rat} (hm : m.Admitted) {s : String × Rect Rat} {current : Rects Rat}
  (hwidth : ∀ e ∈ current, e.2.width = m.nodeWidth) {k : Nat}

include hwidth in
theorem right_of_mem_wave {p : String × Rect Rat} (hp : p ∈ wave m.collisionGap [s] current k) :
    p.2.right + m.collisionGap = column m s.2 k := by
  obtain ⟨t, ht, hlands⟩ := (aligned_iterate hwidth [s] k).lands p hp
  rw [hlands, List.mem_singleton.mp ht]

include hm hwidth

theorem mem_wave_succ {e : String × Rect Rat} :
    e ∈ wave m.collisionGap [s] current (k + 1) ↔
      ∃ r ∈ placed m.collisionGap [s] current k,
        Reached (wave m.collisionGap [s] current k) r ∧ e = landed (column m s.2 k) r := by
  rw [wave_succ]
  exact (mem_level hm.collisionGap_nonneg (fun p => right_of_mem_wave hwidth) e).1

theorem mem_placed_succ {e : String × Rect Rat} :
    e ∈ placed m.collisionGap [s] current (k + 1) ↔
      e ∈ wave m.collisionGap [s] current (k + 1) ∨
        (e ∈ placed m.collisionGap [s] current k ∧
          ¬ Reached (wave m.collisionGap [s] current k) e) := by
  rw [mem_wave_succ hm hwidth, placed_succ]
  exact (mem_level hm.collisionGap_nonneg (fun p => right_of_mem_wave hwidth) e).2

theorem x_of_mem_wave {e : String × Rect Rat}
    (he : e ∈ wave m.collisionGap [s] current (k + 1)) : e.2.x = column m s.2 k := by
  obtain ⟨r, -, -, rfl⟩ := (mem_wave_succ hm hwidth).mp he
  rfl

omit hm in
theorem right_of_mem_placed {e : String × Rect Rat}
    (he : e ∈ placed m.collisionGap [s] current k) : e.2.right = e.2.x + m.nodeWidth := by
  rw [Rect.right, (aligned_iterate hwidth [s] k).width_eq e he]

theorem overlaps_of_sharesRow {e f : String × Rect Rat}
    (he : e ∈ wave m.collisionGap [s] current (k + 1))
    (hf : f ∈ wave m.collisionGap [s] current (k + 1)) (hrow : e.2.SharesRow f.2) :
    e.2.overlaps f.2 = true := by
  have hpos : 0 < m.nodeWidth := hm.nodeWidth_pos
  have hex := x_of_mem_wave hm hwidth he
  have hfx := x_of_mem_wave hm hwidth hf
  have her := right_of_mem_placed hwidth ((mem_placed_succ hm hwidth).mpr (Or.inl he))
  have hfr := right_of_mem_placed hwidth ((mem_placed_succ hm hwidth).mpr (Or.inl hf))
  refine Rect.overlaps_iff.mpr ⟨?_, ?_, hrow.1, hrow.2⟩ <;> linarith

/-! ### Twins stay together -/

theorem twins_succ (h : Twins (wave m.collisionGap [s] current (k + 1))) :
    Twins (wave m.collisionGap [s] current (k + 1 + 1)) := by
  obtain ⟨e, he, f, hf, hne, hrow⟩ := h
  have hover := overlaps_of_sharesRow hm hwidth he hf hrow
  have hreaches : Reached (wave m.collisionGap [s] current (k + 1)) f :=
    ⟨e, he, hits_iff.mpr ⟨hne.symm, hover⟩⟩
  have hreached : Reached (wave m.collisionGap [s] current (k + 1)) e :=
    ⟨f, hf, hits_iff.mpr ⟨hne, (Rect.overlaps_comm f.2 e.2).trans hover⟩⟩
  have hplaced := fun q hq => (mem_placed_succ hm hwidth (s := s) (k := k) (e := q)).mpr (Or.inl hq)
  exact ⟨landed (column m s.2 (k + 1)) e,
    (mem_wave_succ hm hwidth).mpr ⟨e, hplaced e he, hreached, rfl⟩,
    landed (column m s.2 (k + 1)) f,
    (mem_wave_succ hm hwidth).mpr ⟨f, hplaced f hf, hreaches, rfl⟩, hne, hrow⟩

omit hm hwidth in
theorem not_twins_singleton (s : String × Rect Rat) : ¬ Twins [s] := by
  rintro ⟨e, he, f, hf, hne, -⟩
  rw [List.mem_singleton.mp he, List.mem_singleton.mp hf] at hne
  exact hne rfl

/-- Twins on some level overlap after every later one. -/
theorem exists_overlaps_of_twins {j : Nat} (hjk : j ≤ k)
    (h : Twins (wave m.collisionGap [s] current j)) :
    ∃ e ∈ placed m.collisionGap [s] current k, ∃ f ∈ placed m.collisionGap [s] current k,
      e.1 ≠ f.1 ∧ e.2.overlaps f.2 = true := by
  obtain ⟨i, rfl⟩ : ∃ i, j = i + 1 := by
    cases j with
    | zero => exact absurd h (not_twins_singleton s)
    | succ i => exact ⟨i, rfl⟩
  have hlast : ∀ k, i ≤ k → Twins (wave m.collisionGap [s] current (k + 1)) := by
    intro k hik
    induction k, hik using Nat.le_induction with
    | base => exact h
    | succ k _ ih => exact twins_succ hm hwidth ih
  obtain ⟨k, rfl⟩ : ∃ n, k = n + 1 := Nat.exists_eq_succ_of_ne_zero (by omega)
  obtain ⟨e, he, f, hf, hne, hrow⟩ := hlast k (by omega)
  exact ⟨e, (mem_placed_succ hm hwidth).mpr (Or.inl he),
    f, (mem_placed_succ hm hwidth).mpr (Or.inl hf), hne, overlaps_of_sharesRow hm hwidth he hf hrow⟩

/-! ### Without twins nobody is pushed again -/

/-- Of two that overlap before a level, one pushes on it. -/
theorem mem_wave_of_overlaps
    (hapart : ∀ e ∈ current, ∀ f ∈ current, e.1 ≠ f.1 → e.2.overlaps f.2 ≠ true)
    {e f : String × Rect Rat} (he : e ∈ placed m.collisionGap [s] current k)
    (hf : f ∈ placed m.collisionGap [s] current k) (hne : e.1 ≠ f.1)
    (hover : e.2.overlaps f.2 = true) :
    e ∈ wave m.collisionGap [s] current k ∨ f ∈ wave m.collisionGap [s] current k := by
  induction k with
  | zero => exact absurd hover (hapart e he f hf hne)
  | succ k ih =>
    rcases (mem_placed_succ hm hwidth).mp he with hpushed | ⟨hestood, hemiss⟩
    · exact Or.inl hpushed
    rcases (mem_placed_succ hm hwidth).mp hf with hpushed | ⟨hfstood, hfmiss⟩
    · exact Or.inr hpushed
    rcases ih hestood hfstood with hpushes | hpushes
    · exact absurd ⟨e, hpushes, hits_iff.mpr ⟨hne.symm, hover⟩⟩ hfmiss
    · exact absurd ⟨f, hpushes, hits_iff.mpr ⟨hne, (Rect.overlaps_comm f.2 e.2).trans hover⟩⟩ hemiss

omit hm hwidth in
/-- An entry was pushed before a level; it pushes on it if it was pushed on the level just before. -/
def Settled (m : Metrics Rat) (s : String × Rect Rat) (current : Rects Rat) (k : Nat)
    (e : String × Rect Rat) : Prop :=
  e ∈ placed m.collisionGap [s] current k ∧
    ∃ j < k, e.2.x = column m s.2 j ∧ (j + 1 = k → e ∈ wave m.collisionGap [s] current k)

theorem Settled.not_reached {e : String × Rect Rat} (h : Settled m s current k e)
    (hfree : ¬ Twins (wave m.collisionGap [s] current k)) :
    ¬ Reached (wave m.collisionGap [s] current k) e := by
  obtain ⟨hplaced, j, hjk, hx, hlast⟩ := h
  obtain ⟨i, rfl⟩ : ∃ i, k = i + 1 := Nat.exists_eq_succ_of_ne_zero (by omega)
  rintro ⟨p, hp, hhit⟩
  obtain ⟨hne, hover⟩ := hits_iff.mp hhit
  obtain ⟨-, hright, hrow⟩ := Rect.overlaps_iff.mp hover
  rcases Nat.lt_succ_iff_lt_or_eq.mp hjk with hlt | rfl
  · have hcolumn := column_add_le hm s.2 hlt
    have hpx := x_of_mem_wave hm hwidth hp
    have hover' := (Rect.overlaps_iff.mp hover).1
    rw [right_of_mem_placed hwidth hplaced] at hover'
    linarith
  · exact hfree ⟨p, hp, e, hlast rfl, hne.symm, hrow⟩

theorem Settled.succ {e : String × Rect Rat} (h : Settled m s current k e)
    (hfree : ¬ Twins (wave m.collisionGap [s] current k)) : Settled m s current (k + 1) e := by
  have hmiss := h.not_reached hm hwidth hfree
  obtain ⟨hplaced, j, hjk, hx, -⟩ := h
  exact ⟨(mem_placed_succ hm hwidth).mpr (Or.inr ⟨hplaced, hmiss⟩), j, by omega, hx,
    fun hj => by omega⟩

/-- Without twins every level that pushes settles one more. -/
theorem exists_settled (hnodup : (Keyed.keys current).Nodup)
    (hfree : ∀ j < k, ¬ Twins (wave m.collisionGap [s] current j))
    (hpushes : wave m.collisionGap [s] current k ≠ []) :
    ∃ l : Rects Rat, l.length = k ∧ (Keyed.keys l).Nodup ∧ ∀ e ∈ l, Settled m s current k e := by
  induction k with
  | zero => exact ⟨[], rfl, List.nodup_nil, fun e he => absurd he List.not_mem_nil⟩
  | succ k ih =>
    obtain ⟨q, hq⟩ := List.exists_mem_of_ne_nil _ hpushes
    obtain ⟨r, hr, hreached, rfl⟩ := (mem_wave_succ hm hwidth).mp hq
    obtain ⟨p, hp, -⟩ := id hreached
    obtain ⟨l, hlength, hkeys, hsettled⟩ :=
      ih (fun j hj => hfree j (by omega)) (List.ne_nil_of_mem hp)
    have hplaced : (Keyed.keys (placed m.collisionGap [s] current k)).Nodup := by
      rwa [keys_placed]
    -- What was settled before is out of reach, so the one that is pushed now is another.
    have hnew : r.1 ∉ Keyed.keys l := by
      intro hmem
      obtain ⟨e, he, hid⟩ := List.mem_map.mp hmem
      have hsame : e = r := List.inj_on_of_nodup_map hplaced (hsettled e he).1 hr hid
      exact (hsettled e he).not_reached hm hwidth (hfree k (by omega)) (hsame ▸ hreached)
    refine ⟨landed (column m s.2 k) r :: l, by rw [List.length_cons, hlength],
      List.nodup_cons.mpr ⟨hnew, hkeys⟩, fun e he => ?_⟩
    rcases List.mem_cons.mp he with rfl | hold
    · exact ⟨(mem_placed_succ hm hwidth).mpr (Or.inl hq), k, by omega, rfl, fun _ => hq⟩
    · exact (hsettled e hold).succ hm hwidth (hfree k (by omega))

/-- Without twins, a pass with more levels than entries comes to rest. -/
theorem wave_eq_nil (hnodup : (Keyed.keys current).Nodup) {ids : List String}
    (hids : Keyed.keys current ⊆ ids) (hfew : ids.length < k)
    (hfree : ∀ j < k, ¬ Twins (wave m.collisionGap [s] current j)) :
    wave m.collisionGap [s] current k = [] := by
  by_contra hpushes
  obtain ⟨l, hlength, hkeys, hsettled⟩ := exists_settled hm hwidth hnodup hfree hpushes
  have hsubset : Keyed.keys l ⊆ ids := by
    intro id hid
    obtain ⟨e, he, rfl⟩ := List.mem_map.mp hid
    refine hids ?_
    rw [← keys_placed m.collisionGap [s] current k]
    exact List.mem_map_of_mem (hsettled e he).1
  have hle := (List.subperm_of_subset hkeys hsubset).length_le
  rw [Keyed.keys, List.length_map] at hle
  omega

end Single

/-! ## What a single seed leaves behind -/

/-- What stands after the last level are the obstacles where they rest. -/
theorem mem_placed_iff {m : Metrics Rat} (hm : m.Admitted) {seeds : Rects Rat}
    {obstacles : List (Node Rat)} (hids : (obstacles.map Node.id).Nodup)
    (positions : List (String × Point Rat)) {e : String × Rect Rat} :
    e ∈ placed m.collisionGap seeds (standing m seeds obstacles positions) m.maxPushDepth ↔
      ∃ n ∈ obstacles, n.id ∉ Keyed.keys seeds ∧
        e = (n.id, resting m positions (resolve m seeds obstacles positions) n) := by
  have hkeys : (Keyed.keys (placed m.collisionGap seeds
      (standing m seeds obstacles positions) m.maxPushDepth)).Nodup := by
    rw [keys_placed]
    exact Keyed.nodup_keys_ofList _
  constructor
  · intro he
    have hkey : e.1 ∈ Keyed.keys (standing m seeds obstacles positions) := by
      rw [← keys_placed m.collisionGap seeds _ m.maxPushDepth]
      exact List.mem_map_of_mem he
    obtain ⟨n, hn, hid, hfree⟩ := mem_keys_standing hkey
    have hrests := Keyed.mem_of_find? (find?_iterate_advance hm hids positions hn (hid ▸ hfree))
    exact ⟨n, hn, hid ▸ hfree, List.inj_on_of_nodup_map hkeys he hrests hid.symm⟩
  · rintro ⟨n, hn, hfree, rfl⟩
    exact Keyed.mem_of_find? (find?_iterate_advance hm hids positions hn hfree)

/-- A single seed among nodes that stand apart, fewer of them than there are levels, ends clear of
all of them; and they rest apart if and only if no two that push on one level share a row. -/
theorem rests_apart_iff_no_twins {m : Metrics Rat} (hm : m.Admitted) {s : String × Rect Rat}
    {obstacles : List (Node Rat)} (hids : (obstacles.map Node.id).Nodup)
    (hseed : s.1 ∉ obstacles.map Node.id) (positions : List (String × Point Rat))
    (hapart : ∀ a ∈ obstacles, ∀ b ∈ obstacles, a.id ≠ b.id →
      (nodeRect m a (Overlay.positionOf positions a)).overlaps
        (nodeRect m b (Overlay.positionOf positions b)) = false)
    (hfew : obstacles.length < m.maxPushDepth) :
    let rests := resting m positions (resolve m [s] obstacles positions)
    (∀ n ∈ obstacles, s.2.overlaps (rests n) = false) ∧
      ((∀ a ∈ obstacles, ∀ b ∈ obstacles, a.id ≠ b.id → (rests a).overlaps (rests b) = false) ↔
        ∀ k < m.maxPushDepth,
          ¬ Twins (wave m.collisionGap [s] (standing m [s] obstacles positions) k)) := by
  intro rests
  have hfree : ∀ n ∈ obstacles, n.id ∉ Keyed.keys [s] := by
    intro n hn hmem
    rw [Keyed.keys, List.map_singleton, List.mem_singleton] at hmem
    exact hseed (hmem ▸ List.mem_map_of_mem hn)
  have hwidth : ∀ e ∈ standing m [s] obstacles positions, e.2.width = m.nodeWidth :=
    fun e => width_of_mem_standing
  have hrests : ∀ n ∈ obstacles, (n.id, rests n) ∈
      placed m.collisionGap [s] (standing m [s] obstacles positions) m.maxPushDepth :=
    fun n hn => (mem_placed_iff hm hids positions).mpr ⟨n, hn, hfree n hn, rfl⟩
  refine ⟨fun n hn => ?_, fun hclear k hk htwins => ?_, fun hnone a ha b hb hne => ?_⟩
  · exact Bool.eq_false_of_not_eq_true (clear_of_single hm hids hseed positions hn)
  · obtain ⟨e, he, f, hf, hne, hover⟩ := exists_overlaps_of_twins hm hwidth hk.le htwins
    obtain ⟨a, ha, -, rfl⟩ := (mem_placed_iff hm hids positions).mp he
    obtain ⟨b, hb, -, rfl⟩ := (mem_placed_iff hm hids positions).mp hf
    exact Bool.false_ne_true ((hclear a ha b hb hne).symm.trans hover)
  · refine Bool.eq_false_of_not_eq_true fun hover => ?_
    have hstand : ∀ e ∈ standing m [s] obstacles positions,
        ∀ f ∈ standing m [s] obstacles positions, e.1 ≠ f.1 → e.2.overlaps f.2 ≠ true := by
      intro e he f hf hne
      obtain ⟨a, ha, -, rfl⟩ := (mem_standing_iff hids).mp he
      obtain ⟨b, hb, -, rfl⟩ := (mem_standing_iff hids).mp hf
      exact Bool.eq_false_iff.mp (hapart a ha b hb hne)
    have hkeys : Keyed.keys (standing m [s] obstacles positions) ⊆ obstacles.map Node.id := by
      intro id hid
      obtain ⟨n, hn, rfl, -⟩ := mem_keys_standing hid
      exact List.mem_map_of_mem hn
    -- Of two that overlap one would push after the last level, when nothing does.
    have hdone := wave_eq_nil hm hwidth (Keyed.nodup_keys_ofList _) hkeys
      (by rwa [List.length_map]) hnone
    have hpushes := mem_wave_of_overlaps hm hwidth hstand (hrests a ha) (hrests b hb) hne hover
    rw [hdone] at hpushes
    exact hpushes.elim List.not_mem_nil List.not_mem_nil

/-- A seed pushes one lens, which pushes another one. -/
theorem rests_apart_chain :
    let s : String × Rect Rat := ("s", ⟨0, 0, 200, 50⟩)
    let near := lensAt "near" (10 : Rat) 0
    let far := lensAt "far" (210 : Rat) 0
    let rests := resting Canvas.exactMetrics [] (resolve Canvas.exactMetrics [s] [near, far] [])
    ([near, far].map Node.id).Nodup ∧ s.1 ∉ [near, far].map Node.id ∧
      (∀ a ∈ [near, far], ∀ b ∈ [near, far], a.id ≠ b.id →
        (nodeRect Canvas.exactMetrics a (Overlay.positionOf [] a)).overlaps
          (nodeRect Canvas.exactMetrics b (Overlay.positionOf [] b)) = false) ∧
      s.2.overlaps (rests near) = false ∧ (rests near).overlaps (rests far) = false := by
  intro s near far rests
  have hids : ([near, far].map Node.id).Nodup := by decide
  have hseed : s.1 ∉ [near, far].map Node.id := by decide
  have hapart : ∀ a ∈ [near, far], ∀ b ∈ [near, far], a.id ≠ b.id →
      (nodeRect Canvas.exactMetrics a (Overlay.positionOf [] a)).overlaps
        (nodeRect Canvas.exactMetrics b (Overlay.positionOf [] b)) = false := by
    with_unfolding_all decide
  have hsingle : ∀ k < 5, (wave Canvas.exactMetrics.collisionGap [s]
      (standing Canvas.exactMetrics [s] [near, far] []) k).length ≤ 1 := by
    decide +kernel
  obtain ⟨hclear, hrests⟩ := rests_apart_iff_no_twins Canvas.admitted_exactMetrics hids hseed []
    hapart (by decide)
  refine ⟨hids, hseed, hapart, hclear near List.mem_cons_self,
    hrests.mpr ?_ near List.mem_cons_self far (.tail _ List.mem_cons_self) (by decide)⟩
  rintro k hk ⟨e, he, f, hf, hne, -⟩
  obtain ⟨p, hp⟩ := List.length_eq_one_iff.mp
    (Nat.le_antisymm (hsingle k hk) (List.length_pos_of_mem he))
  rw [hp, List.mem_singleton] at he hf
  exact hne (by rw [he, hf])

/-- Two lenses side by side are pushed into one column, and then each by the other. -/
theorem rest_overlapping :
    let s : String × Rect Rat := ("s", ⟨100, 0, 200, 50⟩)
    let left := lensAt "left" (0 : Rat) 0
    let right := lensAt "right" (200 : Rat) 0
    let rests := resting Canvas.exactMetrics [] (resolve Canvas.exactMetrics [s] [left, right] [])
    Canvas.exactMetrics.Admitted ∧ ([left, right].map Node.id).Nodup ∧
      s.1 ∉ [left, right].map Node.id ∧
      (nodeRect Canvas.exactMetrics left (Overlay.positionOf [] left)).overlaps
        (nodeRect Canvas.exactMetrics right (Overlay.positionOf [] right)) = false ∧
      [left, right].length < Canvas.exactMetrics.maxPushDepth ∧
      (rests left).overlaps (rests right) = true := by
  intro s left right rests
  refine ⟨Canvas.admitted_exactMetrics, by decide, by decide, ?_, by decide, ?_⟩
  · with_unfolding_all decide
  · decide +kernel

end Collision
end PromptCanvas
