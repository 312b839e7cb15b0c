import PromptCanvas.Proofs.View.Drags

/-!
# What a drag moves

A drag moves what is selected when the pointer goes down, with the members of all groups among it,
at any depth.  From then on its ids stay the same, whatever becomes of the graph and the selection:
a place is recorded for each of them, and none of them is ever pushed aside by the others.
-/

namespace PromptCanvas

variable {α : Type}

namespace Engine

theorem selection_beginDrag (e : Engine α) (g : Graph α) (id : String) (world : Point α)
    (shift : Bool) :
    (e.beginDrag g id world shift).selection = pressed e.selection id shift := by
  unfold beginDrag
  dsimp only
  split <;> rfl

/-- A drag is begun as soon as there is anything to drag. -/
theorem gesture_beginDrag (e : Engine α) (g : Graph α) (id : String) (world : Point α)
    (shift : Bool) :
    let ids := g.dragged (pressed e.selection id shift)
    (e.beginDrag g id world shift).gesture =
      if ids = [] then e.gesture
      else some (.dragging ids world (Keyed.ofList <|
        (g.nodes.filter fun n => ids.contains n.id).map fun n => (n.id, n.position))) := by
  unfold beginDrag
  dsimp only
  simp only [List.isEmpty_iff]
  split <;> rfl

/-- What is dragged after the pointer went down is what is selected then, with all members. -/
theorem ids_of_pointerDown [Scalar α] {e : Engine α} {s : Store α} {p : Point α}
    {primary shift : Bool} {ids : List String} {start : Point α}
    {positions : List (String × Point α)}
    (h : (e.pointerDown s p primary shift).1.gesture = some (.dragging ids start positions)) :
    ids = s.graph.dragged (e.pointerDown s p primary shift).1.selection ∧
      ∀ id, id ∈ Keyed.keys positions ↔ id ∈ ids := by
  obtain ⟨idle, id, hidle, hbegun⟩ := beginDrag_of_pointerDown h
  rw [hbegun, gesture_beginDrag] at h
  rw [hbegun, selection_beginDrag]
  split at h
  · rw [hidle] at h
    cases h
  · cases h
    exact ⟨rfl, mem_keys_starts fun _ => Graph.mem_ids_of_mem_dragged⟩

end Engine

namespace Canvas

variable [Scalar α]

theorem dragging_of_run {c : Canvas α} {events : List (Event α)} {ids : List String}
    {start : Point α} {positions : List (String × Point α)}
    (hevents : ∀ e ∈ events, ∀ p primary shift, e ≠ .down p primary shift)
    (h : (c.run events).engine.gesture = some (.dragging ids start positions)) :
    c.engine.gesture = some (.dragging ids start positions) := by
  induction events generalizing c with
  | nil => exact h
  | cons e rest ih =>
    obtain ⟨he, hrest⟩ := List.forall_mem_cons.mp hevents
    exact dragging_of_apply he (ih hrest h)

/-- The rounds that find what is dragged end in every graph, and with the least set that has what is
selected and with each id its members.  If that is not empty a drag is begun.  As long as the drag
goes on, its ids are those of the press, with a recorded place for each of them and for no other,
and whatever the pointer does, none of them is pushed aside. -/
theorem drags_least_closure :
    (∀ (g : Graph α) (selection : List String),
      let ids := g.dragged selection
      (∃ rounds ≤ (Search.remaining g.ids (g.present selection)).length,
        ids = g.pullIn^[rounds] (g.present selection) ∧ g.newMembers ids = []) ∧
      ids.Nodup ∧ IsLeast {S : Set String | g.ClosedOver selection S} {id | id ∈ ids}) ∧
    (∀ (e : Engine α) (g : Graph α) (id : String) (world : Point α) (shift : Bool),
      let begun := e.beginDrag g id world shift
      let ids := g.dragged begun.selection
      begun.selection = Engine.pressed e.selection id shift ∧
      (ids = [] → begun.gesture = e.gesture) ∧
      (ids ≠ [] → ∃ positions, begun.gesture = some (.dragging ids world positions) ∧
        ∀ i, i ∈ Keyed.keys positions ↔ i ∈ ids)) ∧
    ∀ (c : Canvas α) (p : Point α) (primary shift : Bool) (events : List (Event α)),
      (∀ e ∈ events, ∀ q b b', e ≠ .down q b b') →
      let down := (c.apply (.down p primary shift)).1
      let later := down.run events
      ∀ ids start positions, later.engine.gesture = some (.dragging ids start positions) →
        ids = c.store.graph.dragged down.engine.selection ∧
        (∀ i, i ∈ Keyed.keys positions ↔ i ∈ ids) ∧
        (∀ i ∈ ids, Keyed.find? i positions = (c.store.graph.lookup? i).map Node.position) ∧
        ∀ world, ∀ i ∈ ids,
          i ∉ Keyed.keys (Engine.pushedAside later.store ids start positions world) := by
  refine ⟨?_, ?_, ?_⟩
  · intro g selection ids
    exact ⟨g.exists_rounds_withMembers _, g.nodup_dragged selection, g.isLeast_dragged selection⟩
  · intro e g id world shift begun ids
    have hselection : begun.selection = Engine.pressed e.selection id shift :=
      e.selection_beginDrag g id world shift
    have hgesture := e.gesture_beginDrag g id world shift
    rw [← hselection] at hgesture
    refine ⟨hselection, fun hnone => hgesture.trans (if_pos hnone), fun hsome => ?_⟩
    exact ⟨_, hgesture.trans (if_neg hsome),
      Engine.mem_keys_starts fun _ => Graph.mem_ids_of_mem_dragged⟩
  · intro c p primary shift events hevents down later ids start positions hlater
    have hdown : down.engine.gesture = some (.dragging ids start positions) :=
      dragging_of_run hevents hlater
    obtain ⟨hids, hkeys⟩ := Engine.ids_of_pointerDown hdown
    exact ⟨hids, hkeys, (Engine.recorded_pointerDown hdown).2, fun world i hi =>
      Graph.not_mem_keys_pushes _ _ _ hi⟩

/-- Two expanded groups that lie in each other, a lens in one of them, and a lens outside. -/
def ringed : List (Event Rat) := [
  .edit (.addNode .group ⟨0, 0⟩), .edit (.addNode .group ⟨0, 300⟩),
  .edit (.addNode .lens ⟨0, 600⟩), .edit (.addNode .lens ⟨300, 600⟩),
  .edit (.setParent "group-2" (some "group-3")), .edit (.setParent "group-3" (some "group-2")),
  .edit (.setParent "lens-4" (some "group-3")), .edit (.setCollapsed "group-2" false []),
  .edit (.setCollapsed "group-3" false []), .select ["group-2", "gone", "output-1"]]

/-- The ring is dragged by one of its groups, beside the output, and its lens pushes the other. -/
theorem drags_least_closure_ringed :
    let c := (Canvas.mk (.startWith .counting exactMetrics) (.ofSize 1280 800)).run ringed
    let down := (c.apply (.down ⟨900, 350⟩ true false)).1
    let later := down.run [.move ⟨1100, 350⟩, .edit (.addNode .lens ⟨0, 0⟩)]
    ∃ ids start positions,
      later.engine.gesture = some (.dragging ids start positions) ∧
      ids = c.store.graph.dragged down.engine.selection ∧
      (∀ i, i ∈ Keyed.keys positions ↔ i ∈ ids) ∧
      "lens-4" ∉ Keyed.keys (Engine.pushedAside later.store ids start positions ⟨1100, 350⟩) := by
  obtain ⟨-, -, hdrag⟩ := drags_least_closure (α := Rat)
  intro c down later
  have hmoved : ∀ e ∈ [Event.move (⟨1100, 350⟩ : Point Rat), .edit (.addNode .lens ⟨0, 0⟩)],
      ∀ q b b', e ≠ .down q b b' := by simp
  have hlater : later.engine.gesture = some (.dragging ["group-2", "output-1", "group-3", "lens-4"]
      ⟨900, 350⟩ [("output-1", ⟨800, 300⟩), ("group-2", ⟨0, 0⟩), ("group-3", ⟨0, 300⟩),
        ("lens-4", ⟨0, 600⟩)]) := by decide +kernel
  obtain ⟨hids, hkeys, -, hpushed⟩ := hdrag c ⟨900, 350⟩ true false _ hmoved _ _ _ hlater
  exact ⟨_, _, _, hlater, hids, hkeys, hpushed _ _ (by simp)⟩

end Canvas
end PromptCanvas
