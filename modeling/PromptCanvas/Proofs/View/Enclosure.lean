import Mathlib.Tactic.Linarith
import PromptCanvas.Proofs.View.Expansion
import PromptCanvas.Proofs.View.Hits

/-!
# What expanded groups are drawn around

An expanded group is drawn around its members as each would be drawn by itself, with padding and a
header.  A member that is an expanded group is itself drawn around its own members, wherever these
are, so the outer group need not reach around it.  `Canvas.encloses_iff` says when it does.
-/

namespace PromptCanvas

/-! ## Rectangles in rectangles -/

namespace Rect

section

variable {α : Type} [Scalar α]

/-- All of a rectangle lies in another one; the borders may touch. -/
structure Within (inner outer : Rect α) : Prop where
  left : outer.x ≤ inner.x
  top : outer.y ≤ inner.y
  right : inner.right ≤ outer.right
  bottom : inner.bottom ≤ outer.bottom

instance (inner outer : Rect α) : Decidable (inner.Within outer) :=
  decidable_of_iff (outer.x ≤ inner.x ∧ outer.y ≤ inner.y ∧ inner.right ≤ outer.right ∧
    inner.bottom ≤ outer.bottom)
    ⟨fun ⟨left, top, right, bottom⟩ => ⟨left, top, right, bottom⟩,
      fun ⟨left, top, right, bottom⟩ => ⟨left, top, right, bottom⟩⟩

/-- The rectangle of a group that is drawn around another one: padding on every side, and above it
the header. -/
def framed (m : Metrics α) (r : Rect α) : Rect α :=
  let twice : α := ((2 : Nat) : α) * m.groupPadding
  ⟨r.x - m.groupPadding, r.y - m.groupPadding - m.groupHeader, r.width + twice,
    r.height + twice + m.groupHeader⟩

end

theorem Within.trans {a b c : Rect Rat} (hab : a.Within b) (hbc : b.Within c) : a.Within c where
  left := hbc.left.trans hab.left
  top := hbc.top.trans hab.top
  right := hab.right.trans hbc.right
  bottom := hab.bottom.trans hbc.bottom

theorem right_framed (m : Metrics Rat) (r : Rect Rat) :
    (r.framed m).right = r.right + m.groupPadding := by
  simp only [framed, right]
  push_cast
  ring

theorem bottom_framed (m : Metrics Rat) (r : Rect Rat) :
    (r.framed m).bottom = r.bottom + m.groupPadding := by
  simp only [framed, bottom]
  push_cast
  ring

theorem within_framed {m : Metrics Rat} (hm : m.Admitted) (r : Rect Rat) :
    r.Within (r.framed m) := by
  have hpadding : 0 ≤ m.groupPadding := by exact_mod_cast hm.groupPadding_nonneg
  have hheader : 0 ≤ m.groupHeader := by exact_mod_cast hm.groupHeader_nonneg
  constructor
  · simp only [framed]
    linarith
  · simp only [framed]
    linarith
  · rw [right_framed]
    linarith
  · rw [bottom_framed]
    linarith

theorem framed_within_framed_iff (m : Metrics Rat) {r q : Rect Rat} :
    (r.framed m).Within (q.framed m) ↔ r.Within q := by
  constructor
  · rintro ⟨left, top, right, bottom⟩
    rw [right_framed, right_framed] at right
    rw [bottom_framed, bottom_framed] at bottom
    simp only [framed] at left top
    constructor <;> linarith
  · rintro ⟨left, top, right, bottom⟩
    constructor
    · simp only [framed]
      linarith
    · simp only [framed]
      linarith
    · rw [right_framed, right_framed]
      linarith
    · rw [bottom_framed, bottom_framed]
      linarith

theorem le_foldl_lesser_iff {β : Type} (f : β → Rat) (bs : List β) (a x : Rat) :
    x ≤ bs.foldl (fun a b => Scalar.lesser a (f b)) a ↔ x ≤ a ∧ ∀ b ∈ bs, x ≤ f b := by
  induction bs generalizing a with
  | nil => simp
  | cons b rest ih =>
    have hmin : Scalar.lesser a (f b) = min a (f b) := by
      rw [Scalar.lesser, min_comm, min_def_lt]
    rw [List.foldl_cons, ih, hmin, le_min_iff, List.forall_mem_cons, and_assoc]

theorem foldl_greater_le_iff {β : Type} (f : β → Rat) (bs : List β) (a x : Rat) :
    bs.foldl (fun a b => Scalar.greater a (f b)) a ≤ x ↔ a ≤ x ∧ ∀ b ∈ bs, f b ≤ x := by
  induction bs generalizing a with
  | nil => simp
  | cons b rest ih =>
    have hmax : Scalar.greater a (f b) = max a (f b) := by
      rw [Scalar.greater, max_def_lt]
    rw [List.foldl_cons, ih, hmax, max_le_iff, List.forall_mem_cons, and_assoc]

theorem right_bounding (first : Rect Rat) (rest : List (Rect Rat)) :
    (bounding first rest).right =
      rest.foldl (fun a r => Scalar.greater a r.right) first.right := by
  simp only [bounding, right]
  ring

theorem bottom_bounding (first : Rect Rat) (rest : List (Rect Rat)) :
    (bounding first rest).bottom =
      rest.foldl (fun a r => Scalar.greater a r.bottom) first.bottom := by
  simp only [bounding, bottom]
  ring

/-- The smallest rectangle around others lies in whatever all of them lie in. -/
theorem bounding_within_iff {first : Rect Rat} {rest : List (Rect Rat)} {r : Rect Rat} :
    (bounding first rest).Within r ↔ ∀ q ∈ first :: rest, q.Within r := by
  constructor
  · rintro ⟨left, top, right, bottom⟩
    rw [bounding, le_foldl_lesser_iff] at left top
    rw [right_bounding, foldl_greater_le_iff] at right
    rw [bottom_bounding, foldl_greater_le_iff] at bottom
    exact List.forall_mem_cons.mpr ⟨⟨left.1, top.1, right.1, bottom.1⟩,
      fun q hq => ⟨left.2 q hq, top.2 q hq, right.2 q hq, bottom.2 q hq⟩⟩
  · intro h
    obtain ⟨hfirst, hrest⟩ := List.forall_mem_cons.mp h
    constructor
    · exact (le_foldl_lesser_iff Rect.x _ _ _).mpr ⟨hfirst.left, fun q hq => (hrest q hq).left⟩
    · exact (le_foldl_lesser_iff Rect.y _ _ _).mpr ⟨hfirst.top, fun q hq => (hrest q hq).top⟩
    · rw [right_bounding, foldl_greater_le_iff]
      exact ⟨hfirst.right, fun q hq => (hrest q hq).right⟩
    · rw [bottom_bounding, foldl_greater_le_iff]
      exact ⟨hfirst.bottom, fun q hq => (hrest q hq).bottom⟩

end Rect

/-! ## Members and the groups around them -/

section

variable {α : Type} [Scalar α]

/-- The rectangle that a node takes up by itself, whatever lies in it. -/
def Node.ownRect (m : Metrics α) (o : Overlay α) (n : Node α) : Rect α :=
  nodeRect m n (o.positionOf n)

namespace Graph

/-- The smallest rectangle around the members of a group, each taken by itself. -/
def extent? (m : Metrics α) (g : Graph α) (o : Overlay α) (group : String) : Option (Rect α) :=
  match (g.children group).map (Node.ownRect m o) with
  | [] => none
  | first :: rest => some (Rect.bounding first rest)

variable {g : Graph α} (hids : (g.nodes.map Node.id).Nodup) (m : Metrics α) (o : Overlay α)
include hids

/-- An expanded group is framed around its members, if it has any; every other node is drawn by
itself. -/
theorem displayRect_eq {n : Node α} (hn : n ∈ g.nodes) :
    g.displayRect m (o.merged g) n =
      if n.isGroup && !n.collapsed then
        ((g.extent? m o n.id).map (Rect.framed m)).getD (n.ownRect m o)
      else n.ownRect m o := by
  have hown (k) (hk : k ∈ g.nodes) :
      nodeRect m k ((Keyed.find? k.id (o.merged g)).getD k.position) = k.ownRect m o := by
    rw [Overlay.merged, find?_ofList_nodes hids o.positionOf hk]
    rfl
  have hmembers : (g.children n.id).map (fun k =>
      nodeRect m k ((Keyed.find? k.id (o.merged g)).getD k.position)) =
        (g.children n.id).map (Node.ownRect m o) :=
    List.map_congr_left fun k hk => hown k (List.mem_filter.mp hk).1
  unfold displayRect extent?
  dsimp only
  rw [hmembers, hown n hn]
  cases n.isGroup
  · rfl
  · cases n.collapsed
    · cases (g.children n.id).map (Node.ownRect m o) <;> rfl
    · rfl

end Graph

end

namespace Graph

variable {g : Graph Rat} {m : Metrics Rat} {o : Overlay Rat}

theorem extent?_within_iff {group : String} {box r : Rect Rat}
    (h : g.extent? m o group = some box) :
    box.Within r ↔ ∀ k ∈ g.children group, (k.ownRect m o).Within r := by
  unfold extent? at h
  split at h
  · cases h
  · rename_i first rest hmembers
    cases h
    rw [Rect.bounding_within_iff, ← hmembers, List.forall_mem_map]

theorem exists_extent? {group : String} {k : Node Rat} (hk : k ∈ g.children group) :
    ∃ box, g.extent? m o group = some box := by
  unfold extent?
  split
  · rename_i hnone
    rw [List.map_eq_nil_iff.mp hnone] at hk
    cases hk
  · exact ⟨_, rfl⟩

/-- A member that is no expanded group always lies in the group that it is in.  One that is lies in
it if its own members do, each of them taken by itself, and only then. -/
theorem displayRect_within_iff (hids : (g.nodes.map Node.id).Nodup) (hm : m.Admitted)
    {group child : Node Rat} (hgroup : group ∈ g.nodes) (hchild : child ∈ g.nodes)
    (hkind : group.isGroup = true) (hexpanded : group.collapsed = false)
    (hparent : child.parent = some group.id) :
    ∃ box, g.extent? m o group.id = some box ∧
      g.displayRect m (o.merged g) group = box.framed m ∧
      ((g.displayRect m (o.merged g) child).Within (box.framed m) ↔
        (child.isGroup = true → child.collapsed = false →
          ∀ inner, g.extent? m o child.id = some inner → inner.Within box)) := by
  have hmember : child ∈ g.children group.id := List.mem_filter.mpr ⟨hchild, by simp [hparent]⟩
  obtain ⟨box, hbox⟩ := exists_extent? (m := m) (o := o) hmember
  have hown : (child.ownRect m o).Within (box.framed m) :=
    (extent?_within_iff hbox).mp (Rect.within_framed hm box) child hmember
  refine ⟨box, hbox, ?_, ?_⟩
  · rw [displayRect_eq hids m o hgroup, hkind, hexpanded, hbox]
    rfl
  · rw [displayRect_eq hids m o hchild]
    cases child.isGroup with
    | false => exact iff_of_true hown fun h => nomatch h
    | true =>
      cases child.collapsed with
      | true => exact iff_of_true hown fun _ h => nomatch h
      | false =>
        cases g.extent? m o child.id with
        | none => exact iff_of_true hown fun _ _ _ h => nomatch h
        | some inner =>
          show (inner.framed m).Within (box.framed m) ↔ _
          rw [Rect.framed_within_framed_iff]
          simp

end Graph

/-! ## The frame -/

namespace Engine

variable {α : Type} [Scalar α] {e : Engine α} {s : Store α}

theorem exists_of_mem_nodes_render (hids : (s.graph.nodes.map Node.id).Nodup)
    {r : RenderNode α} (hr : r ∈ (e.render s).nodes) :
    ∃ n ∈ s.graph.nodes, r = e.listed s
      (n, s.graph.displayRect s.metrics (e.overlay.merged s.graph) n) := by
  rw [nodes_render] at hr
  obtain ⟨row, hrow, rfl⟩ := List.mem_map.mp hr
  obtain ⟨n, hn, hfound⟩ := List.mem_filterMap.mp hrow
  have hn := (List.mem_filter.mp hn).1
  rw [Graph.find?_rects hids s.metrics e.overlay hn] at hfound
  cases hfound
  exact ⟨n, hn, rfl⟩

end Engine

namespace Canvas

/-- Where ids are distinct, as they are on every canvas that is come to, an expanded group is framed
around its members as they are by themselves.  It reaches around a member as that is drawn unless
the member is an expanded group, too, and its own members lie further out. -/
theorem encloses_iff (c : Canvas Rat) (hids : (c.store.graph.nodes.map Node.id).Nodup)
    (hm : c.store.metrics.Admitted) {group child : RenderNode Rat}
    (hgroup : group ∈ (c.engine.render c.store).nodes)
    (hchild : child ∈ (c.engine.render c.store).nodes) (hkind : group.kind = .group)
    (hexpanded : group.collapsed = false) (hparent : child.parent = some group.id) :
    let extent? := c.store.graph.extent? c.store.metrics c.engine.overlay
    ∃ box, extent? group.id = some box ∧ group.rect = box.framed c.store.metrics ∧
      (child.rect.Within group.rect ↔
        (child.kind = .group → child.collapsed = false →
          ∀ inner, extent? child.id = some inner → inner.Within box)) := by
  intro extent?
  obtain ⟨outer, houter, rfl⟩ := Engine.exists_of_mem_nodes_render hids hgroup
  obtain ⟨member, hmember, rfl⟩ := Engine.exists_of_mem_nodes_render hids hchild
  obtain ⟨box, hbox, hrect, hwithin⟩ := Graph.displayRect_within_iff (o := c.engine.overlay) hids
    hm houter hmember (beq_iff_eq.mpr hkind) hexpanded hparent
  refine ⟨box, hbox, hrect, ?_⟩
  show (Graph.displayRect _ _ _ member).Within (Graph.displayRect _ _ _ outer) ↔ _
  rw [hrect, hwithin, Node.isGroup, beq_iff_eq]
  rfl

theorem attained_nestedGroups : nestedGroups.Attained :=
  (Attained.start (Store.sound_startWith .counting exactMetrics) 1280 800).run (by decide +kernel)

/-- The lens is being dragged onto the place of the inner group. -/
def snugDrag : Canvas Rat :=
  nestedGroups.run [.down ⟨700, 630⟩ true false, .move ⟨100, 60⟩]

theorem encloses_iff_snug_drag :
    let nodes := (snugDrag.engine.render snugDrag.store).nodes
    snugDrag.Attained ∧ ∃ group ∈ nodes, ∃ child ∈ nodes, group.id = "group-2" ∧
      child.id = "group-3" ∧ child.collapsed = false ∧ child.rect.Within group.rect := by
  intro nodes
  have hfound : ∃ group ∈ nodes, ∃ child ∈ nodes, group.id = "group-2" ∧ child.id = "group-3" ∧
      group.kind = .group ∧ group.collapsed = false ∧ child.collapsed = false ∧
      child.parent = some group.id := by
    decide +kernel
  have hattained : snugDrag.Attained := attained_nestedGroups.run (by decide +kernel)
  have hids : (snugDrag.store.graph.nodes.map Node.id).Nodup := hattained.sound.graph.nodup_ids
  obtain ⟨group, hgroup, child, hchild, hgid, hcid, hkind, hexpanded, hinner, hparent⟩ := hfound
  refine ⟨hattained, group, hgroup, child, hchild, hgid, hcid, hinner, ?_⟩
  obtain ⟨box, hbox, -, hwithin⟩ := snugDrag.encloses_iff hids admitted_exactMetrics hgroup hchild
    hkind hexpanded hparent
  have houter : snugDrag.store.graph.extent? snugDrag.store.metrics snugDrag.engine.overlay
      "group-2" = some ⟨0, 0, 200, 120⟩ := by
    decide +kernel
  have hlens : snugDrag.store.graph.extent? snugDrag.store.metrics snugDrag.engine.overlay
      "group-3" = some ⟨0, 30, 200, 50⟩ := by
    decide +kernel
  rw [hgid, houter] at hbox
  cases hbox
  refine hwithin.mpr fun _ _ inner h => ?_
  rw [hcid, hlens] at h
  cases h
  decide +kernel

/-- The inner group is drawn around the lens, far from the outer one, which is drawn around the
place where the inner group would stand by itself. -/
theorem not_enclosed_nested_groups :
    nestedGroups.Attained ∧ nestedGroups.store.metrics.Admitted ∧
      let nodes := (nestedGroups.engine.render nestedGroups.store).nodes
      ∃ group ∈ nodes, ∃ child ∈ nodes, group.kind = .group ∧ group.collapsed = false ∧
        child.parent = some group.id ∧ group.rect = ⟨-20, -50, 240, 190⟩ ∧
        child.rect = ⟨580, 550, 240, 120⟩ ∧ ¬ child.rect.Within group.rect :=
  ⟨attained_nestedGroups, admitted_exactMetrics, by decide +kernel⟩

end Canvas
end PromptCanvas
