import PromptCanvas.Proofs.Store.Changes

/-!
# The invariant of the store

A store that starts from a fresh output is sound after every operation of every run, whatever the
operations and whatever documents are loaded.  What is asked of the source of ids is that each id it
gives is new when it gives it.
-/

namespace PromptCanvas
namespace Store

variable {α : Type}

/-- The stems of the ids that an operation draws, as far as it draws any, in their order. -/
def Operation.stems : Operation α → List String
  | .addNode kind _ => [kind.name]
  | .addConnected _ kind => [kind.name, edgeStem]
  | .addEdge _ _ => [edgeStem]
  | .deleteNodes _ | .reset | .load _ => [Kind.output.name]
  | _ => []

/-- The ids that the entries of a loaded document give themselves. -/
def Operation.entryIds : Operation α → List String
  | .load document => Document.ids document
  | _ => []

variable [Scalar α]

/-- The ids that the source gives for an operation. -/
def draws (s : Store α) (op : Operation α) : List String :=
  (op.stems.take ((s.apply op).1.ids.drawn - s.ids.drawn)).mapIdx fun i stem =>
    s.ids.name stem (s.ids.drawn + i + 1)

/-- Each id that is given for an operation is new to the graph and to the document. -/
def DrawsNew (s : Store α) (op : Operation α) : Prop :=
  ∀ id ∈ s.draws op, id ∉ s.graph.allIds ∧ id ∉ op.entryIds

instance (s : Store α) (op : Operation α) : Decidable (s.DrawsNew op) :=
  inferInstanceAs (Decidable (∀ id ∈ s.draws op, id ∉ s.graph.allIds ∧ id ∉ op.entryIds))

/-- Each id that is given during a run is new when it is given. -/
def RunsNew (s : Store α) : List (Operation α) → Prop
  | [] => True
  | op :: rest => s.DrawsNew op ∧ (s.apply op).1.RunsNew rest

instance decideRunsNew : (s : Store α) → (ops : List (Operation α)) → Decidable (s.RunsNew ops)
  | _, [] => isTrue trivial
  | s, op :: rest =>
    have := decideRunsNew (s.apply op).1 rest
    inferInstanceAs (Decidable (s.DrawsNew op ∧ (s.apply op).1.RunsNew rest))

theorem mem_draws {s : Store α} {op : Operation α} {i : Nat} {stem : String}
    (hi : s.ids.drawn + i < (s.apply op).1.ids.drawn) (hs : op.stems[i]? = some stem) :
    s.ids.name stem (s.ids.drawn + i + 1) ∈ s.draws op := by
  rw [draws, List.mem_mapIdx]
  have htake : (op.stems.take ((s.apply op).1.ids.drawn - s.ids.drawn))[i]? = some stem := by
    rw [List.getElem?_take_of_lt (by omega), hs]
  obtain ⟨hlt, hget⟩ := List.getElem?_eq_some_iff.mp htake
  exact ⟨i, hlt, by rw [hget]⟩

/-- Every operation keeps a store sound. -/
theorem Sound.apply {s : Store α} (h : s.Sound) {op : Operation α} (hnew : s.DrawsNew op) :
    (s.apply op).1.Sound := by
  cases op with
  | addNode kind position =>
    exact h.addNode fun hd => (hnew _ (mem_draws (i := 0) hd rfl)).1
  | updateAttributes id changes =>
    have hsame : (s.apply (.updateAttributes id changes)).1 = (s.updateAttributes id changes).1 := by
      rw [Store.apply]
      rcases s.updateAttributes id changes with ⟨s', _ | _⟩ <;> rfl
    rw [hsame]
    exact h.updateAttributes id changes
  | deleteNodes ids => exact h.deleteNodes ids
  | commitPositions positions => exact h.commitPositions positions
  | setCollapsed id collapsed positions => exact h.setCollapsed id collapsed positions
  | setParent id group => exact h.setParent id group
  | reset => exact Sound.reset s
  | addEdge source target =>
    exact h.addEdge fun hd => (hnew _ (mem_draws (i := 0) hd rfl)).1
  | removeEdge id => exact h.removeEdge id
  | addConnected anchor kind =>
    exact h.addConnected (fun hd => (hnew _ (mem_draws (i := 0) hd rfl)).1)
      fun hd => (hnew _ (mem_draws (i := 1) hd rfl)).1
  | load document =>
    rcases hl : s.load document with ⟨s', e | ws⟩
    · have hsame : (s.apply (.load document)).1 = s' := by rw [Store.apply, hl]
      rw [hsame]
      rcases eq_of_load_eq_error hl with rfl | ⟨-, rfl⟩
      · exact h
      · exact ⟨h.graph, h.links⟩
    · have hsame : (s.apply (.load document)).1 = s' := by rw [Store.apply, hl]
      rw [hsame]
      refine sound_of_load_eq_ok hl fun hd => (hnew _ (mem_draws (i := 0) ?_ rfl)).2
      rw [hsame]
      exact hd

/-- A whole run keeps a store sound. -/
theorem Sound.run {s : Store α} (h : s.Sound) {ops : List (Operation α)} (hnew : s.RunsNew ops) :
    (s.run ops).Sound := by
  induction ops generalizing s with
  | nil => exact h
  | cons op rest ih => exact ih (h.apply hnew.1) hnew.2

theorem RunsNew.take {s : Store α} {ops : List (Operation α)} (h : s.RunsNew ops) (k : Nat) :
    s.RunsNew (ops.take k) := by
  induction ops generalizing s k with
  | nil => rw [List.take_nil]; exact h
  | cons op rest ih =>
    cases k with
    | zero => trivial
    | succ k => exact ⟨h.1, ih h.2 k⟩

/-- The stores that can be come to from a sound graph, while each id that is drawn is new. -/
inductive Attained : Store α → Prop
  | start {g : Graph α} (h : g.Sound) (metrics : Metrics α) (ids : IdSource) :
      Attained { ofGraph metrics g with ids }
  | apply {s : Store α} (h : Attained s) {op : Operation α} (hnew : s.DrawsNew op) :
      Attained (s.apply op).1
  | subscribe {s : Store α} (h : Attained s) (l : Listener) : Attained (s.subscribe l).1
  | unsubscribe {s : Store α} (h : Attained s) (u : Subscription) : Attained (s.unsubscribe u)

theorem attained_startWith (ids : IdSource) (metrics : Metrics α) :
    (startWith ids metrics).Attained :=
  .start (sound_freshOutput ids) metrics ids.advance

theorem Attained.sound {s : Store α} (h : s.Attained) : s.Sound := by
  induction h with
  | start h metrics ids => exact ⟨h, rfl⟩
  | apply h hnew ih => exact ih.apply hnew
  | subscribe h l ih => exact ⟨ih.graph, ih.links⟩
  | unsubscribe h u ih => exact ⟨ih.graph, ih.links⟩

theorem Attained.run {s : Store α} (h : s.Attained) {ops : List (Operation α)}
    (hnew : s.RunsNew ops) : (s.run ops).Attained := by
  induction ops generalizing s with
  | nil => exact h
  | cons op rest ih => exact ih (h.apply hnew.1) hnew.2

/-- After every step of every run from a fresh output, the graph has exactly one output, distinct
ids, edges between nodes that are there and that may be joined, no loop, no double edge and no
cycle, parents that are groups, and attributes that belong to their kinds. -/
theorem sound_after_every_step (ids : IdSource) (metrics : Metrics α) (ops : List (Operation α))
    (hnew : (startWith ids metrics).RunsNew ops) (k : Nat) :
    ((startWith ids metrics).run (ops.take k)).graph.Sound :=
  ((sound_startWith ids metrics).run (hnew.take k)).graph

/-- A run that adds, connects, refuses to close a cycle, moves a node into a group, loads a document
without an output and with a cycle, and deletes. -/
def mixedRun : List (Operation Float) := [
  .addNode .lens ⟨0, 0⟩, .addConnected "output-1" .cameraRoot, .addEdge "lens-2" "camera_root-3",
  .addEdge "camera_root-3" "lens-2", .addNode .group ⟨0, 0⟩, .setParent "lens-2" (some "group-6"),
  .load (.obj [
    ("nodes", .arr [
      .obj [("id", .str "a"), ("kind", .str "group"), ("parent_id", .str "b")],
      .obj [("id", .str "b"), ("kind", .str "assembler"), ("parent_id", .str "a")]]),
    ("edges", .arr [
      .obj [("id", .int 1), ("source", .str "a"), ("target", .str "b")],
      .obj [("id", .int 2), ("source", .str "b"), ("target", .str "a")]])]),
  .deleteNodes ["a", "output-7"]]

theorem sound_after_mixedRun :
    let s := startWith .counting ⟨200, 48, 160, 24, 8, 6, 24, 16, 24, 0.2, 3, 0.1, 0.001⟩
    s.RunsNew mixedRun ∧ (s.run (mixedRun.take 8)).graph.Sound :=
  ⟨by decide +kernel, sound_after_every_step _ _ _ (by decide +kernel) 8⟩

end Store
end PromptCanvas
