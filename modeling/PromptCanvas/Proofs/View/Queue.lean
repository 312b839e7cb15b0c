import Mathlib.Logic.Function.Iterate
import PromptCanvas.Proofs.Settings.Admitted
import PromptCanvas.Proofs.View.Pushes

/-!
# A pass of pushes as a queue

A pass can be run with a queue: the first that waits pushes what it overlaps, where it was when it
was queued, and what it pushes waits behind the others, one level deeper.  The queue runs dry, and
then it has made the pushes that the levels give, in their order.

What each step of the queue keeps is `Pass.Orderly`; what a pass returns is read off the queue that
has run dry.
-/

namespace PromptCanvas
namespace Collision

variable {α : Type}

/-- A push: the pusher as it was when it was queued, and what it pushed, where that went. -/
structure Push (α : Type) where
  pusher : String × Rect α
  pushed : String × Rect α

/-- A pass under way: what waits to push, each with its level, where the obstacles stand, and the
pushes so far. -/
structure Pass (α : Type) where
  waiting : List (Nat × String × Rect α)
  current : Rects α
  pushes : List (Push α)

/-- So many pushes in a row lead from a seed to a rectangle. -/
inductive Reaches (seeds : Rects α) (pushes : List (Push α)) : Nat → String × Rect α → Prop
  | seed {s : String × Rect α} (hs : s ∈ seeds) : Reaches seeds pushes 0 s
  | push {k : Nat} {u : Push α} (hu : u ∈ pushes) (h : Reaches seeds pushes k u.pusher) :
      Reaches seeds pushes (k + 1) u.pushed

theorem Reaches.mono {seeds : Rects α} {pushes later : List (Push α)} {k : Nat}
    {e : String × Rect α} (h : Reaches seeds pushes k e) :
    Reaches seeds (pushes ++ later) k e := by
  induction h with
  | seed hs => exact .seed hs
  | push hu _ ih => exact .push (List.mem_append_left later hu) ih

namespace Pass

def start (seeds current : Rects α) : Pass α := ⟨seeds.map (0, ·), current, []⟩

variable [Scalar α]

/-- The first that waits pushes what it overlaps, unless it is too deep. -/
def next (gap : α) (depth : Nat) (p : Pass α) : Pass α :=
  match p.waiting with
  | [] => p
  | (k, pusher) :: rest =>
    if depth ≤ k then { p with waiting := rest }
    else
      let pushed := pushedBy gap pusher p.current
      { waiting := rest ++ pushed.map (k + 1, ·)
        current := afterPush gap pusher p.current
        pushes := p.pushes ++ pushed.map (Push.mk pusher) }

theorem next_of_lt {gap : α} {depth k : Nat} (hk : k < depth) (pusher : String × Rect α)
    (rest : List (Nat × String × Rect α)) (current : Rects α) (pushes : List (Push α)) :
    next gap depth ⟨(k, pusher) :: rest, current, pushes⟩ =
      ⟨rest ++ (pushedBy gap pusher current).map (k + 1, ·), afterPush gap pusher current,
        pushes ++ (pushedBy gap pusher current).map (Push.mk pusher)⟩ :=
  if_neg (by omega)

theorem next_of_le {gap : α} {depth k : Nat} (hk : depth ≤ k) (pusher : String × Rect α)
    (rest : List (Nat × String × Rect α)) (current : Rects α) (pushes : List (Push α)) :
    next gap depth ⟨(k, pusher) :: rest, current, pushes⟩ = ⟨rest, current, pushes⟩ :=
  if_pos hk

end Pass

/-! ## The queue makes the pushes of the levels -/

section Levels

variable [Scalar α]

/-- What pushes on the next level, and where the obstacles stand then. -/
def advance (gap : α) (s : Rects α × Rects α) : Rects α × Rects α :=
  ((level gap s.1 s.2).2, (level gap s.1 s.2).1)

/-- The queue takes a level as a whole before it comes to what that level pushed. -/
theorem iterate_next_level (gap : α) {depth k : Nat} (hk : k < depth) (pushers later : Rects α)
    (current : Rects α) (pushes : List (Push α)) :
    ∃ trace, (Pass.next gap depth)^[pushers.length]
        ⟨pushers.map (k, ·) ++ later.map (k + 1, ·), current, pushes⟩ =
      ⟨(later ++ (level gap pushers current).2).map (k + 1, ·), (level gap pushers current).1,
        pushes ++ trace⟩ ∧
      trace.map Push.pushed = (level gap pushers current).2 := by
  induction pushers generalizing later current pushes with
  | nil => exact ⟨[], by simp [level], rfl⟩
  | cons pusher rest ih =>
    obtain ⟨trace, hrun, htrace⟩ := ih (later ++ pushedBy gap pusher current)
      (afterPush gap pusher current)
      (pushes ++ (pushedBy gap pusher current).map (Push.mk pusher))
    refine ⟨(pushedBy gap pusher current).map (Push.mk pusher) ++ trace, ?_, ?_⟩
    · rw [List.length_cons, Function.iterate_succ_apply, List.map_cons, List.cons_append,
        Pass.next_of_lt hk, List.append_assoc, ← List.map_append, hrun]
      simp only [level, List.append_assoc]
    · rw [List.map_append, List.map_map, htrace]
      exact congrArg (· ++ _) (List.map_id _)

theorem iterate_next_skip (gap : α) (depth : Nat) (pushers current : Rects α)
    (pushes : List (Push α)) :
    (Pass.next gap depth)^[pushers.length] ⟨pushers.map (depth, ·), current, pushes⟩ =
      ⟨[], current, pushes⟩ := by
  induction pushers with
  | nil => rfl
  | cons pusher rest ih =>
    rw [List.length_cons, Function.iterate_succ_apply, List.map_cons,
      Pass.next_of_le (Nat.le_refl depth), ih]

/-- From the first rectangles of a level on, the queue runs dry after the levels that are left. -/
theorem exists_iterate_next (gap : α) {depth n k : Nat} (hk : k + n = depth)
    (pushers current : Rects α) (pushes : List (Push α)) :
    ∃ steps trace, (Pass.next gap depth)^[steps] ⟨pushers.map (k, ·), current, pushes⟩ =
      ⟨[], ((advance gap)^[n] (pushers, current)).2, pushes ++ trace⟩ ∧
      trace.map Push.pushed = levels gap n pushers current := by
  induction n generalizing k pushers current pushes with
  | zero =>
    have hdepth : k = depth := hk
    refine ⟨pushers.length, [], ?_, rfl⟩
    rw [hdepth, iterate_next_skip, List.append_nil]
    rfl
  | succ n ih =>
    obtain ⟨first, hfirst, hpushed⟩ :=
      iterate_next_level gap (show k < depth by omega) pushers [] current pushes
    obtain ⟨steps, trace, hrest, hlater⟩ := ih (show k + 1 + n = depth by omega)
      (level gap pushers current).2 (level gap pushers current).1 (pushes ++ first)
    refine ⟨steps + pushers.length, first ++ trace, ?_, ?_⟩
    · rw [List.map_nil, List.append_nil] at hfirst
      rw [Function.iterate_add_apply, hfirst, List.nil_append, hrest, Function.iterate_succ_apply,
        List.append_assoc]
      rfl
    · rw [List.map_append, hpushed, hlater, levels]

end Levels

/-! ## What a step of the queue keeps -/

/-- What holds of a pass at every step, seen from the seeds and from where the obstacles stood. -/
structure Pass.Orderly (gap : Rat) (depth : Nat) (seeds initial : Rects Rat) (p : Pass Rat) :
    Prop where
  keys_eq : Keyed.keys p.current = Keyed.keys initial
  /-- An obstacle stands where it was pushed last, else where it stood. -/
  find?_current : ∀ id, Keyed.find? id p.current =
    (Keyed.find? id (Keyed.ofList (p.pushes.map Push.pushed))).or (Keyed.find? id initial)
  waiting_reached : ∀ e ∈ p.waiting, Reaches seeds p.pushes e.1 e.2
  pusher_reached : ∀ u ∈ p.pushes, ∃ k < depth, Reaches seeds p.pushes k u.pusher
  /-- A push goes to the right of where the obstacle stood, a gap past the pusher. -/
  pushed_right : ∀ u ∈ p.pushes, ∃ r, Keyed.find? u.pushed.1 initial = some r ∧
    r.x < u.pusher.2.right + gap ∧ u.pushed.2 = ⟨u.pusher.2.right + gap, r.y, r.width, r.height⟩
  /-- A seed that does not wait any more has pushed all that it overlapped. -/
  seed_pushes : ∀ s ∈ seeds, (0, s) ∈ p.waiting ∨ ∀ id r, Keyed.find? id initial = some r →
    s.2.overlaps r = true → id ∈ Keyed.keys (p.pushes.map Push.pushed)

namespace Pass.Orderly

variable {gap : Rat} {depth : Nat} {seeds initial : Rects Rat} {p : Pass Rat}

theorem start (gap : Rat) (depth : Nat) (seeds initial : Rects Rat) :
    (Pass.start seeds initial).Orderly gap depth seeds initial where
  keys_eq := rfl
  find?_current _ := rfl
  waiting_reached e he := by
    obtain ⟨s, hs, rfl⟩ := List.mem_map.mp he
    exact .seed hs
  pusher_reached u hu := absurd hu List.not_mem_nil
  pushed_right u hu := absurd hu List.not_mem_nil
  seed_pushes s hs := Or.inl (List.mem_map_of_mem hs)

/-- An obstacle never goes to the left, and it keeps its row and its size. -/
theorem exists_initial (h : p.Orderly gap depth seeds initial) {id : String} {q : Rect Rat}
    (hq : Keyed.find? id p.current = some q) :
    ∃ r, Keyed.find? id initial = some r ∧ r.x ≤ q.x ∧ q = ⟨q.x, r.y, r.width, r.height⟩ := by
  rw [h.find?_current, Option.or_eq_some_iff] at hq
  rcases hq with hpushed | ⟨-, hstood⟩
  · obtain ⟨⟨pusher, entry⟩, hu, rfl⟩ := List.mem_map.mp (Keyed.mem_of_find?_ofList hpushed)
    obtain ⟨r, hr, hlt, hrect⟩ := h.pushed_right _ hu
    have hq : q = ⟨pusher.2.right + gap, r.y, r.width, r.height⟩ := hrect
    exact ⟨r, hr, by rw [hq]; exact le_of_lt hlt, by rw [hq]⟩
  · exact ⟨q, hstood, le_refl q.x, rfl⟩

section Step

variable {k : Nat} {pusher : String × Rect Rat} {rest : List (Nat × String × Rect Rat)}
  {current : Rects Rat} {pushes : List (Push Rat)}

theorem skip (hdepth : 0 < depth) (hk : depth ≤ k)
    (h : Orderly gap depth seeds initial ⟨(k, pusher) :: rest, current, pushes⟩) :
    Orderly gap depth seeds initial ⟨rest, current, pushes⟩ := by
  refine ⟨h.keys_eq, h.find?_current, fun e he => h.waiting_reached e (.tail _ he),
    h.pusher_reached, h.pushed_right, fun s hs => ?_⟩
  refine (h.seed_pushes s hs).imp_left fun hwaits => ?_
  rcases List.mem_cons.mp hwaits with heq | hrest
  · cases heq
    omega
  · exact hrest

/-- An obstacle that stood on a seed is pushed in the seed's turn, if it was not before. -/
theorem mem_keys_pushedBy_seed (h : p.Orderly gap depth seeds initial) {s : String × Rect Rat}
    (hfree : s.1 ∉ Keyed.keys initial) {id : String} {r : Rect Rat}
    (hr : Keyed.find? id initial = some r) (hover : s.2.overlaps r = true)
    (hbefore : id ∉ Keyed.keys (p.pushes.map Push.pushed)) :
    id ∈ Keyed.keys (pushedBy gap s p.current) := by
  have hstands : Keyed.find? id p.current = some r := by
    have hnone : Keyed.find? id (Keyed.ofList (p.pushes.map Push.pushed)) = none :=
      Keyed.find?_eq_none_iff.mpr fun hmem => hbefore (Keyed.mem_keys_ofList.mp hmem)
    rw [h.find?_current id, hnone, Option.none_or, hr]
  have hne : id ≠ s.1 := fun hid => hfree (hid ▸ Keyed.exists_find?_iff.mp ⟨r, hr⟩)
  exact List.mem_map_of_mem (mem_pushedBy.mpr
    ⟨(id, r), Keyed.mem_of_find? hstands, hits_iff.mpr ⟨hne, hover⟩, rfl⟩)

variable (hgap : 0 ≤ gap) (hdepth : 0 < depth) (hnodup : (Keyed.keys initial).Nodup)
  (hfree : ∀ s ∈ seeds, s.1 ∉ Keyed.keys initial)
include hgap hnodup hfree

theorem push (hk : k < depth)
    (h : Orderly gap depth seeds initial ⟨(k, pusher) :: rest, current, pushes⟩) :
    Orderly gap depth seeds initial
      ⟨rest ++ (pushedBy gap pusher current).map (k + 1, ·), afterPush gap pusher current,
        pushes ++ (pushedBy gap pusher current).map (Push.mk pusher)⟩ := by
  have hpusher : Reaches seeds pushes k pusher := h.waiting_reached (k, pusher) List.mem_cons_self
  have hkeys : (Keyed.keys current).Nodup := h.keys_eq ▸ hnodup
  have hpushed : (pushes ++ (pushedBy gap pusher current).map (Push.mk pusher)).map Push.pushed =
      pushes.map Push.pushed ++ pushedBy gap pusher current := by
    rw [List.map_append, List.map_map]
    exact congrArg (_ ++ ·) (List.map_id _)
  constructor
  case keys_eq => exact (keys_afterPush gap pusher current).trans h.keys_eq
  case find?_current =>
    intro id
    have hlatest : (Keyed.keys (pushedBy gap pusher current)).Nodup :=
      hkeys.sublist (keys_pushedBy_sublist gap pusher current)
    rw [hpushed, Keyed.find?_ofList_append, Keyed.find?_ofList_of_nodup hlatest, Option.or_assoc,
      ← h.find?_current]
    exact find?_afterPush_eq_or gap pusher hkeys id
  case waiting_reached =>
    intro e he
    rcases List.mem_append.mp he with hrest | hnew
    · exact (h.waiting_reached e (.tail _ hrest)).mono
    · obtain ⟨x, hx, rfl⟩ := List.mem_map.mp hnew
      exact .push (u := ⟨pusher, x⟩) (List.mem_append_right _ (List.mem_map_of_mem hx))
        hpusher.mono
  case pusher_reached =>
    intro u hu
    rcases List.mem_append.mp hu with hold | hnew
    · obtain ⟨j, hj, hreached⟩ := h.pusher_reached u hold
      exact ⟨j, hj, hreached.mono⟩
    · obtain ⟨x, -, rfl⟩ := List.mem_map.mp hnew
      exact ⟨k, hk, hpusher.mono⟩
  case pushed_right =>
    intro u hu
    rcases List.mem_append.mp hu with hold | hnew
    · exact h.pushed_right u hold
    · obtain ⟨x, hx, rfl⟩ := List.mem_map.mp hnew
      obtain ⟨e, he, hhit, rfl⟩ := mem_pushedBy.mp hx
      obtain ⟨r, hr, hle, hrect⟩ := h.exists_initial ((Keyed.find?_eq_some_iff hkeys).mpr he)
      have hover := (Rect.overlaps_iff.mp (hits_iff.mp hhit).2).2.1
      refine ⟨r, hr, ?_, ?_⟩
      · show r.x < pusher.2.right + gap
        linarith
      · show shifted gap pusher.2 e.2 = _
        rw [hrect]
        rfl
  case seed_pushes =>
    intro s hs
    rw [hpushed, Keyed.keys, List.map_append]
    rcases h.seed_pushes s hs with hwaits | hdone
    · rcases List.mem_cons.mp hwaits with heq | hrest
      · -- The seed has its turn.
        cases heq
        refine Or.inr fun id r hr hover => ?_
        by_cases hbefore : id ∈ Keyed.keys (pushes.map Push.pushed)
        · exact List.mem_append_left _ hbefore
        · exact List.mem_append_right _
            (h.mem_keys_pushedBy_seed (hfree pusher hs) hr hover hbefore)
      · exact Or.inl (List.mem_append_left _ hrest)
    · exact Or.inr fun id r hr hover => List.mem_append_left _ (hdone id r hr hover)

include hdepth

theorem next (h : p.Orderly gap depth seeds initial) :
    (Pass.next gap depth p).Orderly gap depth seeds initial := by
  obtain ⟨waiting, current, pushes⟩ := p
  cases waiting with
  | nil => exact h
  | cons e rest =>
    obtain ⟨k, pusher⟩ := e
    by_cases hk : depth ≤ k
    · rw [Pass.next_of_le hk]
      exact h.skip hdepth hk
    · rw [Pass.next_of_lt (Nat.lt_of_not_le hk)]
      exact h.push hgap hnodup hfree (Nat.lt_of_not_le hk)

theorem iterate (h : p.Orderly gap depth seeds initial) (steps : Nat) :
    ((Pass.next gap depth)^[steps] p).Orderly gap depth seeds initial := by
  induction steps generalizing p with
  | zero => exact h
  | succ steps ih =>
    rw [Function.iterate_succ_apply]
    exact ih (h.next hgap hdepth hnodup hfree)

end Step

end Pass.Orderly

/-! ## What a pass returns -/

/-- The queue of a pass runs dry, having made the pushes whose last ones are returned. -/
theorem exists_ended_pass {m : Metrics Rat} (hm : m.Admitted) (seeds : Rects Rat)
    (obstacles : List (Node Rat)) (positions : List (String × Point Rat)) :
    ∃ steps p, (Pass.next m.collisionGap m.maxPushDepth)^[steps]
        (Pass.start seeds (standing m seeds obstacles positions)) = p ∧
      p.waiting = [] ∧
      p.current = ((advance m.collisionGap)^[m.maxPushDepth]
        (seeds, standing m seeds obstacles positions)).2 ∧
      p.Orderly m.collisionGap m.maxPushDepth seeds (standing m seeds obstacles positions) ∧
      resolve m seeds obstacles positions =
        Keyed.ofList (p.pushes.map fun u => (u.pushed.1, u.pushed.2.corner)) := by
  obtain ⟨steps, trace, hrun, htrace⟩ := exists_iterate_next m.collisionGap
    (Nat.zero_add m.maxPushDepth) seeds (standing m seeds obstacles positions) []
  refine ⟨steps, _, hrun, rfl, rfl, ?_, ?_⟩
  · rw [← hrun]
    exact (Pass.Orderly.start _ _ _ _).iterate hm.collisionGap_nonneg hm.maxPushDepth_pos
      (Keyed.nodup_keys_ofList _) (fun s => not_mem_keys_standing) steps
  · rw [resolve_eq, ← htrace, List.map_map]
    rfl

/-- Where an obstacle stands after the last level is where it rests. -/
theorem find?_iterate_advance {m : Metrics Rat} (hm : m.Admitted) {seeds : Rects Rat}
    {obstacles : List (Node Rat)} (hids : (obstacles.map Node.id).Nodup)
    (positions : List (String × Point Rat)) {n : Node Rat} (hn : n ∈ obstacles)
    (hfree : n.id ∉ Keyed.keys seeds) :
    Keyed.find? n.id ((advance m.collisionGap)^[m.maxPushDepth]
        (seeds, standing m seeds obstacles positions)).2 =
      some (resting m positions (resolve m seeds obstacles positions) n) := by
  obtain ⟨-, p, -, -, hcurrent, horderly, hresolve⟩ :=
    exists_ended_pass hm seeds obstacles positions
  have hstood := find?_standing m hids positions hn hfree
  have hcorner : Keyed.find? n.id (resolve m seeds obstacles positions) =
      (Keyed.find? n.id (Keyed.ofList (p.pushes.map Push.pushed))).map Rect.corner := by
    rw [hresolve, Keyed.find?_ofList_map (fun u : Push Rat => u.pushed.1)
        (fun u => u.pushed.2.corner),
      show p.pushes.map Push.pushed = p.pushes.map fun u => (u.pushed.1, u.pushed.2) from rfl,
      Keyed.find?_ofList_map (fun u : Push Rat => u.pushed.1) (fun u => u.pushed.2),
      Option.map_map]
    rfl
  rw [← hcurrent, horderly.find?_current, hstood, resting, hcorner]
  cases hlast : Keyed.find? n.id (Keyed.ofList (p.pushes.map Push.pushed)) with
  | none => rfl
  | some q =>
    obtain ⟨r, hr, -, hq⟩ := horderly.exists_initial
      (show Keyed.find? n.id p.current = some q by
        rw [horderly.find?_current, hlast, Option.some_or])
    rw [hstood] at hr
    cases hr
    rw [hq]
    rfl

theorem findRev?_of_mem_returned {pushes : List (Push Rat)} {id : String} {q : Point Rat}
    (h : (id, q) ∈ Keyed.ofList (pushes.map fun u => (u.pushed.1, u.pushed.2.corner))) :
    ∃ u ∈ pushes, pushes.findRev? (·.pushed.1 == id) = some u ∧ u.pushed.1 = id ∧
      u.pushed.2.corner = q := by
  have hfound := (Keyed.find?_eq_some_iff (Keyed.nodup_keys_ofList _)).mpr h
  rw [Keyed.find?_ofList_map (fun u : Push Rat => u.pushed.1) (fun u => u.pushed.2.corner),
    Option.map_eq_some_iff] at hfound
  obtain ⟨u, hu, hcorner⟩ := hfound
  have hlast := hu
  rw [List.findRev?_eq_find?_reverse] at hlast
  have hkey := List.find?_some hlast
  exact ⟨u, List.mem_reverse.mp (List.mem_of_find?_eq_some hlast), hu, eq_of_beq hkey, hcorner⟩

theorem Pass.Orderly.returned {m : Metrics Rat} {depth : Nat} {seeds : Rects Rat}
    {obstacles : List (Node Rat)} {positions : List (String × Point Rat)} {p : Pass Rat}
    (h : p.Orderly m.collisionGap depth seeds (standing m seeds obstacles positions))
    (hids : (obstacles.map Node.id).Nodup) {id : String} {q : Point Rat}
    (hq : (id, q) ∈ Keyed.ofList (p.pushes.map fun u => (u.pushed.1, u.pushed.2.corner))) :
    ∃ n ∈ obstacles, n.id = id ∧ id ∉ Keyed.keys seeds ∧
      q.y = (Overlay.positionOf positions n).y ∧ (Overlay.positionOf positions n).x < q.x ∧
      ∃ u, p.pushes.findRev? (·.pushed.1 == id) = some u ∧
        q.x = m.collisionGap + u.pusher.2.right := by
  obtain ⟨u, hu, hlast, rfl, rfl⟩ := findRev?_of_mem_returned hq
  obtain ⟨r, hr, hlt, hrect⟩ := h.pushed_right u hu
  obtain ⟨n, hn, hid, hfree, rfl⟩ := (find?_standing_iff hids).mp hr
  refine ⟨n, hn, hid, hfree, ?_, ?_, u, hlast, ?_⟩
  · rw [hrect]
    rfl
  · rw [hrect]
    exact hlt
  · rw [hrect]
    exact Rat.add_comm _ _

/-- The queue runs dry.  What is returned are obstacles that are no seeds, each in its row, to the
right of where it stood and a gap past its last pusher as that was queued; every push has a chain of
pushes from a seed behind it that is no longer than the limit; and an obstacle that is no seed and
is not returned does not overlap any seed. -/
theorem resolve_pushes_right {m : Metrics Rat} (hm : m.Admitted) (seeds : Rects Rat)
    {obstacles : List (Node Rat)} (hids : (obstacles.map Node.id).Nodup)
    (positions : List (String × Point Rat)) :
    ∃ steps p, (Pass.next m.collisionGap m.maxPushDepth)^[steps]
        (Pass.start seeds (standing m seeds obstacles positions)) = p ∧
      p.waiting = [] ∧
      resolve m seeds obstacles positions =
        Keyed.ofList (p.pushes.map fun u => (u.pushed.1, u.pushed.2.corner)) ∧
      (∀ id q, (id, q) ∈ resolve m seeds obstacles positions →
        ∃ n ∈ obstacles, n.id = id ∧ id ∉ Keyed.keys seeds ∧
          q.y = (Overlay.positionOf positions n).y ∧ (Overlay.positionOf positions n).x < q.x ∧
          ∃ u, p.pushes.findRev? (·.pushed.1 == id) = some u ∧
            q.x = m.collisionGap + u.pusher.2.right) ∧
      (∀ u ∈ p.pushes, ∃ k < m.maxPushDepth, Reaches seeds p.pushes k u.pusher ∧
        Reaches seeds p.pushes (k + 1) u.pushed) ∧
      ∀ n ∈ obstacles, n.id ∉ Keyed.keys (resolve m seeds obstacles positions) →
        n.id ∉ Keyed.keys seeds →
        ∀ s ∈ seeds, s.2.overlaps (nodeRect m n (Overlay.positionOf positions n)) = false := by
  obtain ⟨steps, p, hrun, hdry, -, horderly, hresolve⟩ :=
    exists_ended_pass hm seeds obstacles positions
  refine ⟨steps, p, hrun, hdry, hresolve, ?_, ?_, ?_⟩
  · intro id q hq
    rw [hresolve] at hq
    exact horderly.returned hids hq
  · intro u hu
    obtain ⟨k, hk, hreached⟩ := horderly.pusher_reached u hu
    exact ⟨k, hk, hreached, .push hu hreached⟩
  · intro n hn hout hfree s hs
    rw [← Bool.not_eq_true]
    intro hover
    rcases horderly.seed_pushes s hs with hwaits | hpushes
    · rw [hdry] at hwaits
      exact List.not_mem_nil hwaits
    · refine hout ?_
      rw [hresolve, Keyed.mem_keys_ofList, Keyed.keys, List.map_map]
      have hpushed := hpushes n.id _ (find?_standing m hids positions hn hfree) hover
      rw [Keyed.keys, List.map_map] at hpushed
      exact hpushed

/-- A lens on a seed is pushed onto another one, which is pushed in turn. -/
theorem resolve_pushes_right_chain :
    let seeds : Rects Rat := [("s", ⟨0, 0, 200, 50⟩)]
    let near := lensAt "near" (10 : Rat) 0
    let far := lensAt "far" (300 : Rat) 0
    Canvas.exactMetrics.Admitted ∧ ([near, far].map Node.id).Nodup ∧
      ∃ steps p, (Pass.next 20 5)^[steps]
          (Pass.start seeds (standing Canvas.exactMetrics seeds [near, far] [])) = p ∧
        p.waiting = [] ∧
        ∃ u, p.pushes.findRev? (·.pushed.1 == "far") = some u ∧ u.pusher.2.right = 420 := by
  intro seeds near far
  have hids : ([near, far].map Node.id).Nodup := by decide
  obtain ⟨steps, p, hrun, hdry, -, hreturned, -⟩ :=
    resolve_pushes_right Canvas.admitted_exactMetrics seeds hids []
  have hfar : Keyed.find? "far" (resolve Canvas.exactMetrics seeds [near, far] []) =
      some ⟨440, 0⟩ := by decide +kernel
  obtain ⟨-, -, -, -, -, -, u, hlast, hx⟩ := hreturned _ _ (Keyed.mem_of_find? hfar)
  refine ⟨Canvas.admitted_exactMetrics, hids, steps, p, hrun, hdry, u, hlast, ?_⟩
  have hgap : (440 : Rat) = 20 + u.pusher.2.right := hx
  linarith

/-- A seed among the obstacles is never returned, whatever another seed does to it. -/
theorem resolve_of_overlapping_seeds :
    let seeds : Rects Rat := [("a", ⟨0, 0, 200, 50⟩), ("b", ⟨100, 0, 200, 50⟩)]
    let a := lensAt "a" (0 : Rat) 0
    Canvas.exactMetrics.Admitted ∧ ([a].map Node.id).Nodup ∧
      a.id ∉ Keyed.keys (resolve Canvas.exactMetrics seeds [a] []) ∧
      ∃ s ∈ seeds, s.1 ≠ a.id ∧
        s.2.overlaps (nodeRect Canvas.exactMetrics a (Overlay.positionOf [] a)) = true := by
  intro seeds a
  refine ⟨Canvas.admitted_exactMetrics, by decide, by decide, ("b", ⟨100, 0, 200, 50⟩),
    .tail _ (.head _), by decide, ?_⟩
  with_unfolding_all decide

end Collision
end PromptCanvas
