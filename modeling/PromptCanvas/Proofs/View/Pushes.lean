import Mathlib.Algebra.Order.Ring.Rat
import Mathlib.Tactic.Linarith
import PromptCanvas.Proofs.Graph.Sound
import PromptCanvas.Proofs.Keyed
import PromptCanvas.View.Visible

/-!
# Pushes

What one push does to the rectangles of a pass, and which of them a level of pushes can touch.  A
push moves a rectangle to the right and leaves its height and its row alone; keys come neither nor go.
-/

namespace PromptCanvas

namespace Rect

theorem overlaps_iff {r q : Rect Rat} :
    r.overlaps q = true ↔ r.x < q.right ∧ q.x < r.right ∧ r.y < q.bottom ∧ q.y < r.bottom := by
  simp only [overlaps, Bool.and_eq_true, decide_eq_true_eq, and_assoc]

theorem overlaps_comm (r q : Rect Rat) : r.overlaps q = q.overlaps r := by
  rw [Bool.eq_iff_iff, overlaps_iff, overlaps_iff]
  constructor <;> rintro ⟨h₁, h₂, h₃, h₄⟩ <;> exact ⟨h₂, h₁, h₄, h₃⟩

/-- What ends where another begins, or before, does not overlap it. -/
theorem not_overlaps_of_right_le {r q : Rect Rat} (h : r.right ≤ q.x) : r.overlaps q ≠ true := by
  intro hover
  have hlt := (overlaps_iff.mp hover).2.1
  linarith

end Rect

namespace Collision

section Keys

variable {α : Type} [Scalar α]

theorem hits_iff {pusher entry : String × Rect α} :
    hits pusher entry = true ↔ entry.1 ≠ pusher.1 ∧ pusher.2.overlaps entry.2 = true := by
  simp only [hits, Bool.and_eq_true, Bool.not_eq_true', beq_eq_false_iff_ne]

theorem mem_pushedBy {gap : α} {pusher : String × Rect α} {current : Rects α}
    {e : String × Rect α} :
    e ∈ pushedBy gap pusher current ↔
      ∃ r ∈ current, hits pusher r = true ∧ e = (r.1, shifted gap pusher.2 r.2) := by
  rw [pushedBy, List.mem_filterMap]
  constructor
  · rintro ⟨r, hmem, hsome⟩
    split at hsome
    · rename_i hhit
      cases hsome
      exact ⟨r, hmem, hhit, rfl⟩
    · cases hsome
  · rintro ⟨r, hmem, hhit, rfl⟩
    exact ⟨r, hmem, by rw [if_pos hhit]⟩

theorem mem_afterPush {gap : α} {pusher : String × Rect α} {current : Rects α}
    {e : String × Rect α} :
    e ∈ afterPush gap pusher current ↔
      (∃ r ∈ current, hits pusher r = true ∧ e = (r.1, shifted gap pusher.2 r.2)) ∨
        (e ∈ current ∧ ¬ hits pusher e = true) := by
  rw [afterPush, List.mem_map]
  constructor
  · rintro ⟨r, hmem, rfl⟩
    by_cases hhit : hits pusher r = true
    · exact Or.inl ⟨r, hmem, hhit, if_pos hhit⟩
    · rw [if_neg hhit]
      exact Or.inr ⟨hmem, hhit⟩
  · rintro (⟨r, hmem, hhit, rfl⟩ | ⟨hmem, hmiss⟩)
    · exact ⟨r, hmem, if_pos hhit⟩
    · exact ⟨e, hmem, if_neg hmiss⟩

theorem find?_afterPush (gap : α) (pusher : String × Rect α) (current : Rects α) (id : String) :
    Keyed.find? id (afterPush gap pusher current) =
      (Keyed.find? id current).map fun r =>
        if hits pusher (id, r) then shifted gap pusher.2 r else r := by
  induction current with
  | nil => rfl
  | cons e rest ih =>
    obtain ⟨id', r⟩ := e
    have hstep : afterPush gap pusher ((id', r) :: rest) =
        (id', if hits pusher (id', r) then shifted gap pusher.2 r else r) ::
          afterPush gap pusher rest := by
      rw [afterPush, List.map_cons, afterPush]
      split <;> rfl
    rw [hstep, Keyed.find?, Keyed.find?]
    by_cases hid : id' = id
    · subst hid
      simp
    · simp only [beq_iff_eq, hid, if_false]
      exact ih

theorem keys_pushedBy_sublist (gap : α) (pusher : String × Rect α) (current : Rects α) :
    (Keyed.keys (pushedBy gap pusher current)).Sublist (Keyed.keys current) := by
  induction current with
  | nil => exact .slnil
  | cons e rest ih =>
    rw [pushedBy, List.filterMap_cons]
    split
    · exact ih.cons e.1
    · rename_i pushed hpushed
      split at hpushed
      · cases hpushed
        exact ih.cons_cons e.1
      · cases hpushed

theorem mem_keys_pushedBy {gap : α} {pusher : String × Rect α} {current : Rects α} {id : String}
    (h : id ∈ Keyed.keys (pushedBy gap pusher current)) : id ∈ Keyed.keys current :=
  (keys_pushedBy_sublist gap pusher current).subset h

/-- Where keys are distinct, what is pushed under a key is what stood under it. -/
theorem find?_pushedBy (gap : α) (pusher : String × Rect α) {current : Rects α}
    (h : (Keyed.keys current).Nodup) (id : String) :
    Keyed.find? id (pushedBy gap pusher current) =
      (Keyed.find? id current).bind fun r =>
        if hits pusher (id, r) then some (shifted gap pusher.2 r) else none := by
  induction current with
  | nil => rfl
  | cons e rest ih =>
    obtain ⟨id', r⟩ := e
    obtain ⟨hnew, hrest⟩ := List.nodup_cons.mp h
    rw [Keyed.find?]
    by_cases hid : id' = id
    · subst hid
      have hlater : Keyed.find? id' (pushedBy gap pusher rest) = none :=
        Keyed.find?_eq_none_iff.mpr fun hmem => hnew (mem_keys_pushedBy hmem)
      rw [if_pos (beq_self_eq_true id'), Option.bind_some, pushedBy, List.filterMap_cons]
      by_cases hhit : hits pusher (id', r) = true
      · simp only [hhit, if_true, Keyed.find?, beq_self_eq_true]
      · simp only [hhit, if_false, Bool.false_eq_true]
        exact hlater
    · rw [if_neg (by simpa using hid), ← ih hrest, pushedBy, List.filterMap_cons]
      by_cases hhit : hits pusher (id', r) = true
      · simp only [hhit, if_true, Keyed.find?, beq_iff_eq, hid, if_false]
        rfl
      · simp only [hhit, if_false, Bool.false_eq_true]
        rfl

/-- After a push stands what was pushed, and else what stood before. -/
theorem find?_afterPush_eq_or (gap : α) (pusher : String × Rect α) {current : Rects α}
    (h : (Keyed.keys current).Nodup) (id : String) :
    Keyed.find? id (afterPush gap pusher current) =
      (Keyed.find? id (pushedBy gap pusher current)).or (Keyed.find? id current) := by
  rw [find?_pushedBy gap pusher h, find?_afterPush]
  cases Keyed.find? id current with
  | none => rfl
  | some r => by_cases hhit : hits pusher (id, r) = true <;> simp [hhit]

theorem keys_afterPush (gap : α) (pusher : String × Rect α) (current : Rects α) :
    Keyed.keys (afterPush gap pusher current) = Keyed.keys current := by
  rw [Keyed.keys, afterPush, List.map_map]
  refine List.map_congr_left fun entry _ => ?_
  show (if hits pusher entry then (entry.1, shifted gap pusher.2 entry.2) else entry).1 = entry.1
  split <;> rfl

theorem keys_level_fst (gap : α) (pushers current : Rects α) :
    Keyed.keys (level gap pushers current).1 = Keyed.keys current := by
  induction pushers generalizing current with
  | nil => rfl
  | cons pusher rest ih =>
    show Keyed.keys (level gap rest (afterPush gap pusher current)).1 = _
    rw [ih, keys_afterPush]

theorem mem_keys_level_snd {gap : α} {pushers current : Rects α} {id : String}
    (h : id ∈ Keyed.keys (level gap pushers current).2) : id ∈ Keyed.keys current := by
  induction pushers generalizing current with
  | nil => exact absurd h List.not_mem_nil
  | cons pusher rest ih =>
    change id ∈ (pushedBy gap pusher current ++ _).map Prod.fst at h
    rw [List.map_append, List.mem_append] at h
    rcases h with hpushed | hlater
    · exact mem_keys_pushedBy hpushed
    · rw [← keys_afterPush gap pusher current]
      exact ih hlater

theorem mem_keys_levels {gap : α} {depth : Nat} {pushers current : Rects α} {id : String}
    (h : id ∈ Keyed.keys (levels gap depth pushers current)) : id ∈ Keyed.keys current := by
  induction depth generalizing pushers current with
  | zero => exact absurd h List.not_mem_nil
  | succ depth ih =>
    change id ∈ ((level gap pushers current).2 ++ _).map Prod.fst at h
    rw [List.map_append, List.mem_append] at h
    rcases h with hpushed | hlater
    · exact mem_keys_level_snd hpushed
    · rw [← keys_level_fst gap pushers current]
      exact ih hlater

end Keys

/-! ## The obstacles of a pass -/

variable {α : Type}

/-- Where the obstacles that are not seeds stand before a pass. -/
def standing (m : Metrics α) (seeds : Rects α) (obstacles : List (Node α))
    (positions : List (String × Point α)) : Rects α :=
  Keyed.ofList <| (obstacles.filter fun n => (Keyed.find? n.id seeds).isNone).map fun n =>
    (n.id, nodeRect m n (Overlay.positionOf positions n))

/-- The rectangle of a node when pushed positions are laid over its position. -/
def resting (m : Metrics α) (positions pushed : List (String × Point α)) (n : Node α) : Rect α :=
  nodeRect m n ((Keyed.find? n.id pushed).getD (Overlay.positionOf positions n))

/-- A collapsed lens at a point. -/
def lensAt (id : String) (x y : α) : Node α := ⟨id, .lens, Kind.starting .lens, ⟨x, y⟩, true, none⟩

theorem resolve_eq [Scalar α] (m : Metrics α) (seeds : Rects α) (obstacles : List (Node α))
    (positions : List (String × Point α)) :
    resolve m seeds obstacles positions =
      Keyed.ofList ((levels m.collisionGap m.maxPushDepth seeds
        (standing m seeds obstacles positions)).map fun e => (e.1, e.2.corner)) :=
  rfl

theorem mem_keys_standing {m : Metrics α} {seeds : Rects α} {obstacles : List (Node α)}
    {positions : List (String × Point α)} {id : String}
    (h : id ∈ Keyed.keys (standing m seeds obstacles positions)) :
    ∃ n ∈ obstacles, n.id = id ∧ id ∉ Keyed.keys seeds := by
  rw [standing, Keyed.mem_keys_ofList, Keyed.keys, List.map_map] at h
  obtain ⟨n, hn, rfl⟩ := List.mem_map.mp h
  obtain ⟨hmem, hfree⟩ := List.mem_filter.mp hn
  exact ⟨n, hmem, rfl, Keyed.find?_eq_none_iff.mp (Option.isNone_iff_eq_none.mp hfree)⟩

theorem not_mem_keys_standing {m : Metrics α} {seeds : Rects α} {obstacles : List (Node α)}
    {positions : List (String × Point α)} {s : String × Rect α} (hs : s ∈ seeds) :
    s.1 ∉ Keyed.keys (standing m seeds obstacles positions) := by
  intro hmem
  obtain ⟨-, -, -, hfree⟩ := mem_keys_standing hmem
  exact hfree (List.mem_map_of_mem hs)

/-- Where ids are distinct, each obstacle that is not a seed stands by itself. -/
theorem find?_standing_iff {m : Metrics α} {seeds : Rects α} {obstacles : List (Node α)}
    (hids : (obstacles.map Node.id).Nodup) {positions : List (String × Point α)} {id : String}
    {r : Rect α} :
    Keyed.find? id (standing m seeds obstacles positions) = some r ↔
      ∃ n ∈ obstacles, n.id = id ∧ id ∉ Keyed.keys seeds ∧
        r = nodeRect m n (Overlay.positionOf positions n) := by
  have hfree : ∀ n : Node α, n ∈ obstacles.filter (fun n => (Keyed.find? n.id seeds).isNone) ↔
      n ∈ obstacles ∧ n.id ∉ Keyed.keys seeds := by
    intro n
    rw [List.mem_filter, Option.isNone_iff_eq_none, Keyed.find?_eq_none_iff]
  have hnodup : ((obstacles.filter fun n => (Keyed.find? n.id seeds).isNone).map Node.id).Nodup :=
    hids.sublist (List.filter_sublist.map Node.id)
  have hlookup : ∀ n, (obstacles.filter fun n => (Keyed.find? n.id seeds).isNone).findRev?
      (·.id == id) = some n ↔ (n ∈ obstacles ∧ n.id ∉ Keyed.keys seeds) ∧ n.id = id := by
    intro n
    rw [← hfree n]
    exact Graph.lookup?_eq_some_iff (g := ⟨_, []⟩) hnodup
  rw [standing, Keyed.find?_ofList_map Node.id, Option.map_eq_some_iff]
  constructor
  · rintro ⟨n, hn, rfl⟩
    obtain ⟨⟨hmem, hseed⟩, rfl⟩ := (hlookup n).mp hn
    exact ⟨n, hmem, rfl, hseed, rfl⟩
  · rintro ⟨n, hmem, rfl, hseed, rfl⟩
    exact ⟨n, (hlookup n).mpr ⟨⟨hmem, hseed⟩, rfl⟩, rfl⟩

theorem mem_standing_iff {m : Metrics α} {seeds : Rects α} {obstacles : List (Node α)}
    (hids : (obstacles.map Node.id).Nodup) {positions : List (String × Point α)}
    {e : String × Rect α} :
    e ∈ standing m seeds obstacles positions ↔
      ∃ n ∈ obstacles, n.id ∉ Keyed.keys seeds ∧
        e = (n.id, nodeRect m n (Overlay.positionOf positions n)) := by
  obtain ⟨id, r⟩ := e
  rw [standing, ← Keyed.find?_eq_some_iff (Keyed.nodup_keys_ofList _)]
  refine (find?_standing_iff hids).trans (exists_congr fun n => and_congr_right fun _ => ?_)
  rw [Prod.mk.injEq]
  constructor
  · rintro ⟨rfl, hfree, rfl⟩
    exact ⟨hfree, rfl, rfl⟩
  · rintro ⟨hfree, rfl, rfl⟩
    exact ⟨rfl, hfree, rfl⟩

theorem find?_standing (m : Metrics α) {seeds : Rects α} {obstacles : List (Node α)}
    (hids : (obstacles.map Node.id).Nodup) (positions : List (String × Point α)) {n : Node α}
    (hn : n ∈ obstacles) (hfree : n.id ∉ Keyed.keys seeds) :
    Keyed.find? n.id (standing m seeds obstacles positions) =
      some (nodeRect m n (Overlay.positionOf positions n)) :=
  (find?_standing_iff hids).mpr ⟨n, hn, rfl, hfree, rfl⟩

/-- Only obstacles are pushed. -/
theorem mem_obstacles_of_resolve [Scalar α] {m : Metrics α} {seeds : Rects α} {obstacles : List (Node α)}
    {positions : List (String × Point α)} {id : String}
    (h : id ∈ Keyed.keys (resolve m seeds obstacles positions)) :
    id ∈ obstacles.map Node.id := by
  rw [resolve_eq, Keyed.mem_keys_ofList, Keyed.keys, List.map_map] at h
  obtain ⟨n, hn, rfl, -⟩ := mem_keys_standing (mem_keys_levels h)
  exact List.mem_map_of_mem hn

end Collision
end PromptCanvas
