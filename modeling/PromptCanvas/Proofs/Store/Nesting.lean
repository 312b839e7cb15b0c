import PromptCanvas.Proofs.Graph.Nesting
import PromptCanvas.Proofs.Store.Changes

/-!
# Rings of groups

The store refuses to put a node into itself, and asks of a group only that it is one.  So two groups
can be put into each other, and a document may bring a ring of groups with it.  Nothing else makes a
ring: a store that starts from a fresh output stays nested as long as no node is put into a group
that lies in it and no loaded document has groups that lie in each other.
-/

namespace PromptCanvas

open Relation

namespace Document

variable {α : Type} [Scalar α]

/-- The groups among the nodes that are read from a document. -/
def groups (document : Json) : List (Node α) :=
  match keepNodes [] (entries (members document).1 "nodes").1 with
  | .ok (read, _) => read.filter Node.isGroup
  | .error _ => []

omit [Scalar α] in
theorem parent_of_repairParent {kindOf : String → Option Kind} {n : Node α} {p : String}
    (h : (repairParent kindOf n).1.parent = some p) :
    n.parent = some p ∧ kindOf p = some .group := by
  unfold repairParent at h
  split at h
  · rename_i hnone
    rw [hnone] at h
    cases h
  · rename_i q hq
    split at h
    · rename_i hk
      rw [hq, Option.some.injEq] at h
      exact ⟨by rw [hq, h], h ▸ eq_of_beq hk⟩
    · cases h

theorem mem_completed {ids : IdSource} {read : List (Node α)} {n : Node α}
    (h : n ∈ completed ids read) : n ∈ read ∨ n = Store.freshOutput ids := by
  unfold completed at h
  split at h
  · exact Or.inl h
  · exact (List.mem_append.mp h).imp_right List.mem_singleton.mp

/-- Of nodes with their parents repaired, one that has the id of a group and lies in another is a
group that was read. -/
theorem liesIn_groups {ids : IdSource} {read : List (Node α)} (hread : Compatible read)
    {edges : List Edge} {a b : String}
    (h : (Graph.mk (repaired (completed ids read)) edges).LiesIn a b)
    (ha : (Graph.mk (completed ids read) []).kindOf a = some .group) :
    (Graph.mk (read.filter Node.isGroup) []).LiesIn a b := by
  obtain ⟨m, hm, rfl, hmp⟩ := h
  obtain ⟨n, hn, rfl⟩ := List.mem_map.mp (repaired_eq (completed ids read) ▸ hm)
  obtain ⟨hp, -⟩ := parent_of_repairParent hmp
  have hid : (repairParent (Graph.mk (completed ids read) []).kindOf n).1.id = n.id := by
    obtain ⟨q, hq, -⟩ := exists_repairParent (Graph.mk (completed ids read) []).kindOf n
    rw [hq]
  rw [hid] at ha ⊢
  -- A fresh output lies in nothing and is no group, so both nodes of the id were read.
  have hnread : n ∈ read := by
    refine (mem_completed hn).resolve_right fun hfresh => ?_
    rw [hfresh] at hp
    cases hp
  obtain ⟨k, hk, hkid, hkind⟩ := Graph.exists_of_kindOf ha
  have hkread : k ∈ read := by
    refine (mem_completed hk).resolve_right fun hfresh => ?_
    rw [hfresh] at hkind
    cases hkind
  have hsame : k = n :=
    Graph.eq_of_id_eq (g := ⟨read, []⟩) hread.nodup_ids hkread hnread hkid
  refine ⟨n, List.mem_filter.mpr ⟨hnread, ?_⟩, rfl, hp⟩
  rw [Node.isGroup, ← hsame, hkind]
  rfl

/-- A ring of repaired nodes is a ring of the groups that were read. -/
theorem nested_repaired {ids : IdSource} {read : List (Node α)} (hread : Compatible read)
    (hgroups : (Graph.mk (read.filter Node.isGroup) []).WellNested) (edges : List Edge) :
    (Graph.mk (repaired (completed ids read)) edges).Nested := by
  have hparent : ∀ a b, (Graph.mk (repaired (completed ids read)) edges).LiesIn a b →
      (Graph.mk (completed ids read) []).kindOf b = some .group := by
    rintro a b ⟨m, hm, -, hmp⟩
    obtain ⟨n, -, rfl⟩ := List.mem_map.mp (repaired_eq (completed ids read) ▸ hm)
    exact (parent_of_repairParent hmp).2
  refine ⟨fun n hn p hp => ?_, fun a ha => ?_⟩
  · obtain ⟨k, hk, hkid, -⟩ := Graph.exists_of_kindOf (hparent n.id p ⟨n, hn, rfl, hp⟩)
    have hids := map_id_repaired (completed ids read)
    rw [Graph.ids, hids, ← hkid]
    exact List.mem_map_of_mem hk
  · have hpath : ∀ b, TransGen (Graph.mk (repaired (completed ids read)) edges).LiesIn a b →
        (Graph.mk (completed ids read) []).kindOf a = some .group →
        TransGen (Graph.mk (read.filter Node.isGroup) []).LiesIn a b := by
      intro b hab hka
      induction hab with
      | single hab => exact .single (liesIn_groups hread hab hka)
      | tail hab hbc ih =>
        obtain ⟨x, -, hxb⟩ := TransGen.tail'_iff.mp hab
        exact ih.tail (liesIn_groups hread hbc (hparent x _ hxb))
    obtain ⟨x, -, hxa⟩ := TransGen.tail'_iff.mp ha
    exact hgroups a (hpath a ha (hparent x a hxa))

end Document

namespace Store

variable {α : Type} [Scalar α]

/-- An operation puts no node into a group that lies in it, and loads no ring of groups. -/
def Untangled (s : Store α) : Operation α → Prop
  | .setParent id (some group) =>
    (s.setParent id (some group)).2 = true → ¬ ReflTransGen s.graph.LiesIn group id
  | .load document => (Graph.mk (Document.groups (α := α) document) []).WellNested
  | _ => True

instance (s : Store α) : (op : Operation α) → Decidable (s.Untangled op)
  | .setParent id (some group) => inferInstanceAs (Decidable
      ((s.setParent id (some group)).2 = true → ¬ ReflTransGen s.graph.LiesIn group id))
  | .load document => inferInstanceAs (Decidable
      (Graph.mk (Document.groups (α := α) document) []).WellNested)
  | .setParent _ none | .addNode _ _ | .updateAttributes _ _ | .deleteNodes _
  | .commitPositions _ | .setCollapsed _ _ _ | .reset | .addEdge _ _ | .removeEdge _
  | .addConnected _ _ => isTrue trivial

/-- No operation of a run makes a ring. -/
def RunsUntangled (s : Store α) : List (Operation α) → Prop
  | [] => True
  | op :: rest => s.Untangled op ∧ (s.apply op).1.RunsUntangled rest

instance decideRunsUntangled : (s : Store α) → (ops : List (Operation α)) →
    Decidable (s.RunsUntangled ops)
  | _, [] => isTrue trivial
  | s, op :: rest =>
    have := decideRunsUntangled (s.apply op).1 rest
    inferInstanceAs (Decidable (s.Untangled op ∧ (s.apply op).1.RunsUntangled rest))

/-! ## Each operation -/

section Operations

variable {s : Store α} (h : s.graph.Nested)
include h

section Plain

omit [Scalar α]

theorem nested_addNode (kind : Kind) (position : Point α) :
    (s.addNode kind position).1.graph.Nested := by
  unfold addNode
  split
  · exact h
  · exact h.add_node rfl s.graph.edges

theorem nested_updateAttributes (id : String) (changes : List (String × Json)) :
    (s.updateAttributes id changes).1.graph.Nested := by
  unfold updateAttributes
  split
  · exact h
  · rename_i n hn
    obtain ⟨hmem, rfl⟩ := Graph.mem_of_node? hn
    split
    · exact h
    · exact h.replace_node rfl fun p hp => ⟨n, hmem, rfl, hp⟩

theorem nested_setCollapsed (id : String) (collapsed : Bool) (positions : List (String × Point α)) :
    (s.setCollapsed id collapsed positions).1.graph.Nested := by
  unfold setCollapsed
  split
  · exact h
  · split
    · exact h
    · have hflagged : (s.graph.mapNode id fun n => { n with collapsed }).Nested :=
        h.map_nodes (fun n => by split <;> rfl) (fun n => by split <;> rfl) s.graph.edges
      refine hflagged.map_nodes (fun n => ?_) (fun n => ?_) _ <;>
        obtain ⟨p, hp⟩ := exists_placedBy positions n <;> rw [hp]

theorem nested_addEdge (source target : String) : (s.addEdge source target).1.graph.Nested := by
  unfold addEdge
  split
  · exact h
  · exact h.with_edges _

theorem nested_removeEdge (id : String) : (s.removeEdge id).1.graph.Nested := by
  unfold removeEdge
  split
  · exact h.with_edges _
  · exact h

end Plain

theorem nested_deleteNodes (ids : List String) : (s.deleteNodes ids).1.graph.Nested := by
  have hkept : ∀ edges, (Graph.mk ((s.graph.nodes.filter fun n =>
      !(s.deletable ids).contains n.id).map (orphanedBy (s.deletable ids))) edges).Nested := by
    refine h.remove_nodes (fun n => ?_) fun n p hp => ?_ <;>
      obtain ⟨q, hq, hparent⟩ := exists_orphanedBy (s.deletable ids) n
    · rw [hq]
    · rw [hq] at hp
      exact hparent p hp
  unfold deleteNodes
  dsimp only
  split
  · exact h
  · split
    · exact hkept _
    · exact (hkept []).add_node rfl _

theorem nested_commitPositions (positions : List (String × Point α)) :
    (s.commitPositions positions).1.graph.Nested := by
  have hplace : ∀ n : Node α, ∃ p, (if moves positions n then placedBy positions n else n) =
      { n with position := p } := by
    intro n
    split
    · exact exists_placedBy positions n
    · exact ⟨n.position, rfl⟩
  unfold commitPositions
  split
  · refine h.map_nodes (fun n => ?_) (fun n => ?_) s.graph.edges <;>
      obtain ⟨p, hp⟩ := hplace n <;> rw [hp]
  · exact h

theorem nested_addConnected (anchor : String) (kind : Kind) :
    (s.addConnected anchor kind).1.graph.Nested := by
  unfold addConnected
  split
  · exact h
  · split
    · exact h
    · dsimp only
      split
      · exact h.add_node rfl _
      · split
        · exact h.add_node rfl _
        · exact h.add_node rfl _

theorem nested_setParent {id : String} {group : Option String}
    (hu : s.Untangled (.setParent id group)) : (s.setParent id group).1.graph.Nested := by
  unfold setParent
  cases hn : s.graph.node? id with
  | none => exact h
  | some n =>
    dsimp only
    split
    · rename_i hdone
      have hid := (Graph.mem_of_node? hn).2
      cases group with
      | none => exact h.replace_node hid fun p hp => nomatch hp
      | some group =>
        obtain ⟨m, hm, hmid, -⟩ := exists_group_of_usableGroup (Bool.and_eq_true_iff.mp hdone).1
        refine h.put_into hid rfl (hmid ▸ List.mem_map_of_mem hm) (hu ?_)
        simp only [setParent, hn, hdone, if_true]
    · exact h

omit h in
theorem nested_load {document : Json} {s' : Store α} {ws : List LoadWarning}
    (hu : s.Untangled (.load document)) (hl : s.load document = (s', .ok ws)) :
    s'.graph.Nested := by
  obtain ⟨-, read, w, hread, rfl, -⟩ := load_eq_ok_iff.mp hl
  have hgroups : Document.groups (α := α) document = read.filter Node.isGroup := by
    rw [Document.groups, hread]
  refine Document.nested_repaired
    (Document.compatible_of_keepNodes hread Document.compatible_nil).1 ?_ _
  rw [← hgroups]
  exact hu

end Operations

theorem nested_startWith (ids : IdSource) (metrics : Metrics α) :
    (startWith ids metrics).graph.Nested :=
  Graph.nested_single rfl []

/-- Whatever an operation is, it makes no ring unless it puts a node into a group that lies in it or
loads a ring. -/
theorem nested_apply {s : Store α} (h : s.graph.Nested) {op : Operation α} (hu : s.Untangled op) :
    (s.apply op).1.graph.Nested := by
  cases op with
  | addNode kind position => exact nested_addNode h kind position
  | updateAttributes id changes =>
    have hsame : (s.apply (.updateAttributes id changes)).1 =
        (s.updateAttributes id changes).1 := by
      rw [Store.apply]
      rcases s.updateAttributes id changes with ⟨s', _ | _⟩ <;> rfl
    rw [hsame]
    exact nested_updateAttributes h id changes
  | deleteNodes ids => exact nested_deleteNodes h ids
  | commitPositions positions => exact nested_commitPositions h positions
  | setCollapsed id collapsed positions => exact nested_setCollapsed h id collapsed positions
  | setParent id group => exact nested_setParent h hu
  | reset => exact Graph.nested_single rfl []
  | addEdge source target => exact nested_addEdge h source target
  | removeEdge id => exact nested_removeEdge h id
  | addConnected anchor kind => exact nested_addConnected h anchor kind
  | load document =>
    rcases hl : s.load document with ⟨s', e | ws⟩
    · simp only [Store.apply, hl]
      rcases eq_of_load_eq_error hl with rfl | ⟨-, rfl⟩
      · exact h
      · exact h
    · simp only [Store.apply, hl]
      exact nested_load hu hl

theorem nested_run {s : Store α} (h : s.graph.Nested) {ops : List (Operation α)}
    (hu : s.RunsUntangled ops) : (s.run ops).graph.Nested := by
  induction ops generalizing s with
  | nil => exact h
  | cons op rest ih => exact ih (nested_apply h hu.1) hu.2

theorem RunsUntangled.take {s : Store α} {ops : List (Operation α)} (h : s.RunsUntangled ops)
    (k : Nat) : s.RunsUntangled (ops.take k) := by
  induction ops generalizing s k with
  | nil => rw [List.take_nil]; exact h
  | cons op rest ih =>
    cases k with
    | zero => trivial
    | succ k => exact ⟨h.1, ih h.2 k⟩

/-! ## Rings -/

omit [Scalar α] in
theorem setParent_self (s : Store α) (id : String) : s.setParent id (some id) = (s, false) := by
  have hself : s.usableGroup id id = false := by simp [usableGroup]
  unfold setParent
  cases s.graph.node? id with
  | none => rfl
  | some n =>
    dsimp only
    rw [Option.map_some, hself]
    rfl

omit [Scalar α] in
/-- Nothing keeps a node from being put into a group that lies in it. -/
theorem ring_of_setParent {s : Store α} {id group : String}
    (hdone : (s.setParent id (some group)).2 = true) (h : ReflTransGen s.graph.LiesIn group id) :
    TransGen (s.setParent id (some group)).1.graph.LiesIn id id := by
  unfold setParent at hdone ⊢
  cases hn : s.graph.node? id with
  | none => rw [hn] at hdone; cases hdone
  | some n =>
    obtain ⟨hmem, hid⟩ := Graph.mem_of_node? hn
    rw [hn] at hdone
    dsimp only at hdone ⊢
    split
    · exact Graph.transGen_of_put_into hmem hid hid rfl h
    · rename_i hrefused
      rw [if_neg hrefused] at hdone
      cases hdone

/-- Two groups, each of which is put into the other. -/
def crossed : List (Operation Float) :=
  [.addNode .group ⟨0, 0⟩, .addNode .group ⟨300, 0⟩, .setParent "group-2" (some "group-3"),
    .setParent "group-3" (some "group-2")]

/-- Either group lies in itself, and climbing from there never comes to an end. -/
theorem ring_after_crossed :
    let g := ((startWith .counting usualMetrics).run crossed).graph
    TransGen g.LiesIn "group-2" "group-2" ∧
      ∃ n ∈ g.nodes, ∀ k m, g.climb k n = some m → m.parent ≠ none := by
  intro g
  have hsecond : (g.lookup? "group-2").map Node.parent = some (some "group-3") := by decide +kernel
  have hthird : (g.lookup? "group-3").map Node.parent = some (some "group-2") := by decide +kernel
  obtain ⟨second, hfound₂, hp₂⟩ := Option.map_eq_some_iff.mp hsecond
  obtain ⟨third, hfound₃, hp₃⟩ := Option.map_eq_some_iff.mp hthird
  obtain ⟨hmem₂, hid₂⟩ := Graph.mem_of_lookup? hfound₂
  obtain ⟨hmem₃, hid₃⟩ := Graph.mem_of_lookup? hfound₃
  have hround : ∀ k n m, n.parent = some "group-2" ∨ n.parent = some "group-3" →
      g.climb k n = some m → m.parent ≠ none := by
    intro k
    induction k with
    | zero =>
      intro n m hn hm
      cases hm
      rcases hn with hn | hn <;> rw [hn] <;> exact Option.some_ne_none _
    | succ k ih =>
      intro n m hn hm
      rw [Graph.climb] at hm
      rcases hn with hn | hn
      · rw [hn, Option.bind_some, hfound₂, Option.bind_some] at hm
        exact ih second m (Or.inr hp₂) hm
      · rw [hn, Option.bind_some, hfound₃, Option.bind_some] at hm
        exact ih third m (Or.inl hp₃) hm
  refine ⟨.tail (.single ⟨second, hmem₂, hid₂, hp₂⟩) ⟨third, hmem₃, hid₃, hp₃⟩, second, hmem₂, ?_⟩
  exact fun k m => hround k second m (Or.inr hp₂)

/-- After every step of every run from a fresh output in which no node is put into a group that lies
in it, and no document is loaded whose groups lie in each other, no node lies in itself, and
climbing from any node comes to an end.  A node is never put into itself; to put it into a group
that lies in it makes a ring in every such state. -/
theorem nested_after_every_step (ids : IdSource) (metrics : Metrics α) (ops : List (Operation α))
    (hu : (startWith ids metrics).RunsUntangled ops) (k : Nat) :
    let s := (startWith ids metrics).run (ops.take k)
    (∀ a, ¬ TransGen s.graph.LiesIn a a) ∧
    (∀ n ∈ s.graph.nodes, ∃ j m, s.graph.climb j n = some m ∧ m.parent = none) ∧
    ∀ id group, (s.setParent id (some group)).2 = true →
      group ≠ id ∧ (ReflTransGen s.graph.LiesIn group id →
        TransGen (s.setParent id (some group)).1.graph.LiesIn id id) := by
  intro s
  have hnested : s.graph.Nested := nested_run (nested_startWith ids metrics) (hu.take k)
  refine ⟨hnested.wellNested, hnested.wellNested.exists_climb hnested.rooted, ?_⟩
  refine fun id group hdone => ⟨?_, ring_of_setParent hdone⟩
  rintro rfl
  rw [setParent_self] at hdone
  cases hdone

/-- Groups are nested and nested otherwise, and a document with nested groups is loaded. -/
def renested : List (Operation Float) :=
  [.addNode .group ⟨0, 0⟩, .addNode .group ⟨300, 0⟩, .setParent "group-2" (some "group-3"),
    .setParent "group-2" (some "group-2"), .setParent "group-2" none,
    .setParent "group-3" (some "group-2"), .setParent "output-1" (some "group-3"),
    .load (.obj [("nodes", .arr [
      .obj [("id", .str "a"), ("kind", .str "group"), ("parent_id", .str "b")],
      .obj [("id", .str "b"), ("kind", .str "group"), ("parent_id", .str "c")],
      .obj [("id", .str "c"), ("kind", .str "lens"), ("parent_id", .str "a")]])]),
    .deleteNodes ["b"]]

theorem nested_after_renested :
    let s := startWith .counting usualMetrics
    s.RunsUntangled renested ∧ ∀ a, ¬ TransGen (s.run (renested.take 8)).graph.LiesIn a a :=
  ⟨by decide +kernel, (nested_after_every_step _ _ _ (by decide +kernel) 8).1⟩

end Store
end PromptCanvas
