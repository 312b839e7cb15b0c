import Mathlib.Tactic.Ring
import PromptCanvas.Proofs.View.Queue

/-!
# Columns of pushed nodes

All nodes are of one width, so a row of pushes puts its nodes down at places that only depend on the
seed it began with: the columns of the seed.  A seed pushes away what overlaps it in its turn, and
what is pushed later can come to lie on it only in a column of another seed.
-/

namespace PromptCanvas
namespace Collision

/-- Where a node is put down that so many further nodes were pushed on the way to, from a seed. -/
def column (m : Metrics Rat) (seed : Rect Rat) (k : Nat) : Rat :=
  seed.right + m.collisionGap + k * (m.nodeWidth + m.collisionGap)

/-- A node that begins at a horizontal place shares some of the width of a rectangle. -/
def Spans (m : Metrics Rat) (x : Rat) (r : Rect Rat) : Prop := x < r.right ∧ r.x < x + m.nodeWidth

theorem column_zero (m : Metrics Rat) (seed : Rect Rat) :
    column m seed 0 = seed.right + m.collisionGap := by
  simp [column]

theorem column_succ (m : Metrics Rat) (seed : Rect Rat) (k : Nat) :
    column m seed (k + 1) = column m seed k + m.nodeWidth + m.collisionGap := by
  rw [column, column, Nat.cast_succ]
  ring

section Admitted

variable {m : Metrics Rat} (hm : m.Admitted) (seed : Rect Rat)
include hm

theorem column_add_le {j k : Nat} (h : j < k) : column m seed j + m.nodeWidth ≤ column m seed k := by
  have hwidth : 0 < m.nodeWidth := hm.nodeWidth_pos
  have hgap : 0 ≤ m.collisionGap := hm.collisionGap_nonneg
  induction h with
  | refl =>
    rw [Nat.succ_eq_add_one, column_succ]
    linarith
  | step _ ih =>
    rw [Nat.succ_eq_add_one, column_succ]
    linarith

theorem right_le_column (k : Nat) : seed.right ≤ column m seed k := by
  have hwidth : 0 < m.nodeWidth := hm.nodeWidth_pos
  have hgap : 0 ≤ m.collisionGap := hm.collisionGap_nonneg
  have hfirst : seed.right ≤ column m seed 0 := by
    rw [column_zero]
    linarith
  rcases Nat.eq_zero_or_pos k with rfl | hk
  · exact hfirst
  · linarith [column_add_le hm seed hk]

end Admitted

/-! ## What a level does to all entries -/

section Level

/-- What the pushes of a level keep of the entries, it keeps of all entries and of the pushed ones,
which begin a gap past a pusher. -/
theorem forall_level {gap : Rat} {P : String × Rect Rat → Prop} {pushers current : Rects Rat}
    (hkeep : ∀ p ∈ pushers, ∀ e, P e → P (e.1, shifted gap p.2 e.2)) (h : ∀ e ∈ current, P e) :
    (∀ e ∈ (level gap pushers current).1, P e) ∧
      ∀ e ∈ (level gap pushers current).2, P e ∧ ∃ p ∈ pushers, e.2.x = p.2.right + gap := by
  induction pushers generalizing current with
  | nil => exact ⟨h, fun e he => absurd he List.not_mem_nil⟩
  | cons p rest ih =>
    have hp := hkeep p List.mem_cons_self
    have hafter : ∀ e ∈ afterPush gap p current, P e := by
      intro e he
      rcases mem_afterPush.mp he with ⟨r, hmem, -, rfl⟩ | ⟨hmem, -⟩
      · exact hp r (h r hmem)
      · exact h e hmem
    obtain ⟨hfst, hsnd⟩ := ih (fun q hq => hkeep q (.tail p hq)) hafter
    refine ⟨hfst, fun e he => ?_⟩
    rcases List.mem_append.mp he with hpushed | hlater
    · obtain ⟨r, hr, -, rfl⟩ := mem_pushedBy.mp hpushed
      exact ⟨hp r (h r hr), p, List.mem_cons_self, rfl⟩
    · obtain ⟨hP, q, hq, hx⟩ := hsnd e hlater
      exact ⟨hP, q, .tail p hq, hx⟩

/-- Pushes change no sizes. -/
theorem width_level (gap : Rat) {w : Rat} {current : Rects Rat}
    (h : ∀ e ∈ current, e.2.width = w) (pushers : Rects Rat) :
    (∀ e ∈ (level gap pushers current).1, e.2.width = w) ∧
      ∀ e ∈ (level gap pushers current).2, e.2.width = w ∧
        ∃ p ∈ pushers, e.2.x = p.2.right + gap :=
  forall_level (P := fun e => e.2.width = w) (fun _ _ _ he => he) h

theorem level_append (gap : Rat) (first second current : Rects Rat) :
    (level gap (first ++ second) current).1 =
      (level gap second (level gap first current).1).1 := by
  induction first generalizing current with
  | nil => rfl
  | cons p rest ih => exact ih (afterPush gap p current)

end Level

/-! ## The pushes of a level land in columns -/

/-- Entries before a level: all are of one width, and what pushes on the level puts down in columns
of the seeds. -/
structure Aligned (m : Metrics Rat) (seeds : Rects Rat) (k : Nat) (s : Rects Rat × Rects Rat) :
    Prop where
  width_eq : ∀ e ∈ s.2, e.2.width = m.nodeWidth
  lands : ∀ p ∈ s.1, ∃ t ∈ seeds, p.2.right + m.collisionGap = column m t.2 k

theorem Aligned.advance {m : Metrics Rat} {seeds : Rects Rat} {k : Nat} {s : Rects Rat × Rects Rat}
    (h : Aligned m seeds k s) : Aligned m seeds (k + 1) (advance m.collisionGap s) := by
  obtain ⟨hfst, hsnd⟩ := width_level m.collisionGap h.width_eq s.1
  refine ⟨hfst, fun e he => ?_⟩
  obtain ⟨hwidth, p, hp, hx⟩ := hsnd e he
  obtain ⟨t, ht, hlands⟩ := h.lands p hp
  refine ⟨t, ht, ?_⟩
  rw [column_succ, ← hlands, ← hx, Rect.right, hwidth]

theorem aligned_iterate {m : Metrics Rat} {current : Rects Rat}
    (hwidth : ∀ e ∈ current, e.2.width = m.nodeWidth) (seeds : Rects Rat) (k : Nat) :
    Aligned m seeds k ((Collision.advance m.collisionGap)^[k] (seeds, current)) := by
  induction k with
  | zero => exact ⟨hwidth, fun t ht => ⟨t, ht, (column_zero m t.2).symm⟩⟩
  | succ k ih =>
    rw [Function.iterate_succ_apply']
    exact ih.advance

theorem width_of_mem_standing {m : Metrics Rat} {seeds : Rects Rat} {obstacles : List (Node Rat)}
    {positions : List (String × Point Rat)} {e : String × Rect Rat}
    (h : e ∈ standing m seeds obstacles positions) : e.2.width = m.nodeWidth := by
  have hfound : Keyed.find? e.1 (standing m seeds obstacles positions) = some e.2 :=
    (Keyed.find?_eq_some_iff (Keyed.nodup_keys_ofList _)).mpr h
  obtain ⟨n, -, hn⟩ := List.mem_map.mp (Keyed.mem_of_find?_ofList hfound)
  rw [← congrArg Prod.snd hn]
  rfl

/-! ## A seed stays clear -/

/-- A seed's own pushes leave nothing on it. -/
theorem not_overlaps_afterPush {gap : Rat} (hgap : 0 ≤ gap) {s : String × Rect Rat}
    {current : Rects Rat} (hfree : s.1 ∉ Keyed.keys current) :
    ∀ e ∈ afterPush gap s current, s.2.overlaps e.2 ≠ true := by
  intro e he
  rcases mem_afterPush.mp he with ⟨r, -, -, rfl⟩ | ⟨hmem, hmiss⟩
  · refine Rect.not_overlaps_of_right_le ?_
    show s.2.right ≤ s.2.right + gap
    linarith
  · have hne : e.1 ≠ s.1 := fun hid => hfree (hid ▸ List.mem_map_of_mem hmem)
    exact fun hover => hmiss (hits_iff.mpr ⟨hne, hover⟩)

section Clear

variable {m : Metrics Rat} (hm : m.Admitted) {s : String × Rect Rat} {current : Rects Rat}
  (hwidth : ∀ e ∈ current, e.2.width = m.nodeWidth)
include hwidth

/-- Pushes that put nothing down over a rectangle leave it clear. -/
theorem clear_level {pushers : Rects Rat}
    (hapart : ∀ p ∈ pushers, ¬ Spans m (p.2.right + m.collisionGap) s.2)
    (hclear : ∀ e ∈ current, s.2.overlaps e.2 ≠ true) :
    ∀ e ∈ (level m.collisionGap pushers current).1, s.2.overlaps e.2 ≠ true := by
  have hkeep : ∀ p ∈ pushers, ∀ e : String × Rect Rat,
      (e.2.width = m.nodeWidth ∧ s.2.overlaps e.2 ≠ true) →
      e.2.width = m.nodeWidth ∧ s.2.overlaps (shifted m.collisionGap p.2 e.2) ≠ true := by
    rintro p hp e ⟨he, -⟩
    refine ⟨he, fun hover => hapart p hp ?_⟩
    obtain ⟨hleft, hright, -, -⟩ := Rect.overlaps_iff.mp hover
    rw [Spans, ← he]
    exact ⟨hright, hleft⟩
  intro e he
  exact ((forall_level hkeep fun e he => ⟨hwidth e he, hclear e he⟩).1 e he).2

include hm

/-- After any level nothing overlaps a seed that no column of another one lies over.  On the first
level only the seeds count that push after it. -/
theorem clear_iterate (before after : Rects Rat) (hfree : s.1 ∉ Keyed.keys current) {depth : Nat}
    (hapart : ∀ t ∈ before ++ after, ∀ k < depth, (k = 0 → t ∈ after) →
      ¬ Spans m (column m t.2 k) s.2) {k : Nat} (hpos : 0 < k) (hk : k ≤ depth) :
    ∀ e ∈ ((advance m.collisionGap)^[k] (before ++ s :: after, current)).2,
      s.2.overlaps e.2 ≠ true := by
  induction k, hpos using Nat.le_induction with
  | base =>
    -- The seed clears itself in its turn; after that only the later seeds push on this level.
    show ∀ e ∈ (level m.collisionGap (before ++ s :: after) current).1, _
    have hearlier := (width_level m.collisionGap hwidth before).1
    have hturn := (width_level m.collisionGap hearlier [s]).1
    rw [level_append]
    refine clear_level hturn (fun t ht => ?_)
      (not_overlaps_afterPush hm.collisionGap_nonneg ?_)
    · rw [← column_zero m]
      exact hapart t (List.mem_append_right before ht) 0 hk fun _ => ht
    · rwa [keys_level_fst]
  | succ k hpos ih =>
    have halign := aligned_iterate hwidth (before ++ s :: after) k
    rw [Function.iterate_succ_apply']
    refine clear_level halign.width_eq (fun p hp => ?_) (ih (Nat.le_of_succ_le hk))
    obtain ⟨t, ht, hlands⟩ := halign.lands p hp
    rw [hlands]
    -- The seed's own columns are to its right, and of the others none is over it.
    have hcases : t = s ∨ t ∈ before ++ after := by
      rw [List.mem_append, List.mem_cons] at ht
      rw [List.mem_append]
      tauto
    rcases hcases with rfl | hother
    · rintro ⟨hright, -⟩
      linarith [right_le_column hm t.2 k]
    · exact hapart t hother k hk fun hzero => by omega

end Clear

theorem clear_of_single {m : Metrics Rat} (hm : m.Admitted) {s : String × Rect Rat}
    {obstacles : List (Node Rat)} (hids : (obstacles.map Node.id).Nodup)
    (hseed : s.1 ∉ obstacles.map Node.id) (positions : List (String × Point Rat))
    {n : Node Rat} (hn : n ∈ obstacles) :
    s.2.overlaps (resting m positions (resolve m [s] obstacles positions) n) ≠ true := by
  have hfree : n.id ∉ Keyed.keys [s] := by
    intro hmem
    rw [Keyed.keys, List.map_singleton, List.mem_singleton] at hmem
    exact hseed (hmem ▸ List.mem_map_of_mem hn)
  have hrests := Keyed.mem_of_find? (find?_iterate_advance hm hids positions hn hfree)
  have hclear := clear_iterate hm (fun e => width_of_mem_standing) [] []
    (not_mem_keys_standing List.mem_cons_self) (fun t ht => absurd ht List.not_mem_nil)
    hm.maxPushDepth_pos (Nat.le_refl _) _ hrests
  exact hclear

/-- A seed that no column of another seed lies over stays clear of every obstacle.  The first column
of a seed that pushes before it does not count. -/
theorem seed_stays_clear {m : Metrics Rat} (hm : m.Admitted) {before after : Rects Rat}
    {s : String × Rect Rat} {obstacles : List (Node Rat)} (hids : (obstacles.map Node.id).Nodup)
    (positions : List (String × Point Rat))
    (hapart : ∀ t ∈ before ++ after, ∀ k < m.maxPushDepth, (k = 0 → t ∈ after) →
      ¬ Spans m (column m t.2 k) s.2) :
    ∀ n ∈ obstacles, n.id ∉ Keyed.keys (before ++ s :: after) →
      s.2.overlaps
        (resting m positions (resolve m (before ++ s :: after) obstacles positions) n) = false := by
  intro n hn hfree
  have hrests := Keyed.mem_of_find? (find?_iterate_advance hm hids positions hn hfree)
  have hseed : s ∈ before ++ s :: after := List.mem_append_right before List.mem_cons_self
  have hclear := clear_iterate hm (fun e => width_of_mem_standing) before after
    (not_mem_keys_standing hseed) hapart hm.maxPushDepth_pos (Nat.le_refl _) _ hrests
  exact Bool.eq_false_of_not_eq_true hclear

/-- A seed pushes after the other one, the first column of which is over it. -/
theorem seed_stays_clear_later :
    let before : Rects Rat := [("a", ⟨0, 0, 200, 50⟩)]
    let b : String × Rect Rat := ("b", ⟨220, 0, 200, 50⟩)
    let n := lensAt "n" (10 : Rat) 0
    (∀ t ∈ before ++ [], ∀ k < 5, (k = 0 → t ∈ []) →
        ¬ Spans Canvas.exactMetrics (column Canvas.exactMetrics t.2 k) b.2) ∧
      b.2.overlaps (resting Canvas.exactMetrics []
        (resolve Canvas.exactMetrics (before ++ [b]) [n] []) n) = false := by
  intro before b n
  have hapart : ∀ t ∈ before ++ [], ∀ k < 5, (k = 0 → t ∈ []) →
      ¬ Spans Canvas.exactMetrics (column Canvas.exactMetrics t.2 k) b.2 := by
    intro t ht k _ hk
    rw [List.append_nil, List.mem_singleton] at ht
    subst ht
    rintro ⟨hright, -⟩
    have hlater : 0 < k := Nat.pos_of_ne_zero fun hzero => List.not_mem_nil (hk hzero)
    have hcolumn := column_add_le Canvas.admitted_exactMetrics (⟨0, 0, 200, 50⟩ : Rect Rat) hlater
    have hfirst : column Canvas.exactMetrics ⟨0, 0, 200, 50⟩ 0 + 200 = 420 := by
      with_unfolding_all decide
    have hb : b.2.right = 420 := by with_unfolding_all decide
    change column Canvas.exactMetrics ⟨0, 0, 200, 50⟩ 0 + 200 ≤ _ at hcolumn
    linarith
  exact ⟨hapart, seed_stays_clear Canvas.admitted_exactMetrics
    (show ([n].map Node.id).Nodup by decide) [] hapart n List.mem_cons_self (by decide)⟩

/-- A seed that has pushed is not kept clear of what a later seed pushes. -/
theorem overlapped_by_later_seed :
    let seeds : Rects Rat := [("b", ⟨220, 0, 200, 50⟩), ("a", ⟨0, 0, 200, 50⟩)]
    let n := lensAt "n" (10 : Rat) 0
    Canvas.exactMetrics.Admitted ∧ ([n].map Node.id).Nodup ∧ n.id ∉ Keyed.keys seeds ∧
      ∃ s ∈ seeds, s.2.overlaps
        (resting Canvas.exactMetrics [] (resolve Canvas.exactMetrics seeds [n] []) n) = true := by
  intro seeds n
  refine ⟨Canvas.admitted_exactMetrics, by decide, by decide, ("b", ⟨220, 0, 200, 50⟩),
    .head _, ?_⟩
  with_unfolding_all decide

end Collision
end PromptCanvas
