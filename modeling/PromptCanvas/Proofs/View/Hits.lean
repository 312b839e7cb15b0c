import PromptCanvas.Proofs.Keyed
import PromptCanvas.Proofs.Settings.Admitted
import PromptCanvas.View.Canvas
import PromptCanvas.View.Render

/-!
# What is hit is what is drawn

A hit test and a frame are two walks over the visible nodes, one from the top down and one from the
bottom up.  `Frame.Shows` reads a hit off a frame alone, without the graph, the overlay or the
gesture that the frame was made from; whatever a hit test finds, the frame shows.
-/

namespace PromptCanvas

variable {α : Type} [Scalar α]

namespace RenderNode

/-- A point is within reach of the pin where edges leave a node.  An output node has no such pin. -/
def AtOutput (m : Metrics α) (p : Point α) (n : RenderNode α) : Prop :=
  n.kind ≠ .output ∧ p.near? (n.rect.outputPin m) m.pinRadius = some true

/-- A point is within reach of the pin where edges enter a node. -/
def AtInput (m : Metrics α) (p : Point α) (n : RenderNode α) : Prop :=
  p.near? (n.rect.inputPin m) m.pinRadius = some true

/-- A point is out of reach of every pin of a node. -/
structure OffPins (m : Metrics α) (p : Point α) (n : RenderNode α) : Prop where
  output : n.kind ≠ .output → p.near? (n.rect.outputPin m) m.pinRadius = some false
  input : p.near? (n.rect.inputPin m) m.pinRadius = some false

/-- A point lies on a node that is no group. -/
def OnPlain (p : Point α) (n : RenderNode α) : Prop :=
  n.kind ≠ .group ∧ n.rect.contains p = true

/-- A point lies on a group. -/
def OnGroup (p : Point α) (n : RenderNode α) : Prop :=
  n.kind = .group ∧ n.rect.contains p = true

end RenderNode

namespace Frame

open RenderNode (AtOutput AtInput OffPins OnPlain OnGroup)

/-- A frame lists a node of which something holds, and of all that are listed after it, and so drawn
over it, something else. -/
def Lists (f : Frame α) (id : String) (here later : RenderNode α → Prop) : Prop :=
  ∃ before n after, f.nodes = before ++ n :: after ∧ n.id = id ∧ here n ∧ ∀ k ∈ after, later k

/-- What a frame has to show where a point hit something. -/
def Shows (f : Frame α) (m : Metrics α) (p : Point α) : Hit → Prop
  | .outputPin id => f.Lists id (AtOutput m p) (OffPins m p)
  | .inputPin id => f.Lists id (AtInput m p) (OffPins m p)
  | .node id => f.Lists id (OnPlain p) (¬ OnPlain p ·) ∧ ∀ n ∈ f.nodes, OffPins m p n
  | .group id =>
    f.Lists id (OnGroup p) (¬ OnGroup p ·) ∧ ∀ n ∈ f.nodes, ¬ OnPlain p n ∧ OffPins m p n
  | .canvas => ∀ n ∈ f.nodes, n.rect.contains p = false ∧ OffPins m p n

end Frame

namespace Graph

variable {m : Metrics α} {p : Point α}

/-- The visible nodes with the rectangles that they are drawn with, from the bottom up. -/
def drawn (m : Metrics α) (g : Graph α) (o : Overlay α) : List (Node α × Rect α) :=
  g.visible.filterMap fun n => (Keyed.find? n.id (g.rects m o)).map fun r => (n, r)

/-! ## Pins -/

theorem pinAt?_eq (m : Metrics α) (p : Point α) (n : Node α) (r : Rect α) :
    pinAt? m p n r =
      (if n.isOutput then some false else p.near? (r.outputPin m) m.pinRadius).bind fun output =>
        if output then some (some (.outputPin n.id))
        else (p.near? (r.inputPin m) m.pinRadius).bind fun input =>
          some (if input then some (.inputPin n.id) else none) := by
  unfold pinAt?
  split <;> rfl

theorem near_of_pinAt?_eq_none {n : Node α} {r : Rect α} (h : pinAt? m p n r = some none) :
    (n.kind ≠ .output → p.near? (r.outputPin m) m.pinRadius = some false) ∧
      p.near? (r.inputPin m) m.pinRadius = some false := by
  rw [pinAt?_eq, Option.bind_eq_some_iff] at h
  obtain ⟨output, houtput, h⟩ := h
  cases output with
  | true => cases h
  | false =>
    obtain ⟨input, hinput, h⟩ := Option.bind_eq_some_iff.mp h
    cases input with
    | true => cases h
    | false =>
      refine ⟨fun hkind => ?_, hinput⟩
      rwa [if_neg (by simpa [Node.isOutput] using hkind)] at houtput

theorem near_of_pinAt?_eq_some {n : Node α} {r : Rect α} {hit : Hit}
    (h : pinAt? m p n r = some (some hit)) :
    (hit = .outputPin n.id ∧ n.kind ≠ .output ∧
        p.near? (r.outputPin m) m.pinRadius = some true) ∨
      (hit = .inputPin n.id ∧ p.near? (r.inputPin m) m.pinRadius = some true) := by
  rw [pinAt?_eq, Option.bind_eq_some_iff] at h
  obtain ⟨output, houtput, h⟩ := h
  cases output with
  | true =>
    cases h
    split at houtput
    · cases houtput
    · rename_i hkind
      exact .inl ⟨rfl, by simpa [Node.isOutput] using hkind, houtput⟩
  | false =>
    obtain ⟨input, hinput, h⟩ := Option.bind_eq_some_iff.mp h
    cases input with
    | true =>
      cases h
      exact .inr ⟨rfl, hinput⟩
    | false => cases h

theorem pinAt?_of_firstPin?_eq_none {rows : List (Node α × Rect α)}
    (h : firstPin? m p rows = some none) : ∀ row ∈ rows, pinAt? m p row.1 row.2 = some none := by
  induction rows with
  | nil => exact fun _ hmem => nomatch hmem
  | cons row rest ih =>
    simp only [firstPin?, Option.bind_eq_bind, Option.bind_eq_some_iff] at h
    obtain ⟨found, hfound, h⟩ := h
    cases found with
    | some hit => cases h
    | none =>
      intro k hk
      rcases List.mem_cons.mp hk with rfl | hrest
      · exact hfound
      · exact ih h k hrest

/-- The rows before the one whose pin was found have no pin within reach. -/
theorem exists_of_firstPin?_eq_some {rows : List (Node α × Rect α)} {hit : Hit}
    (h : firstPin? m p rows = some (some hit)) :
    ∃ above row below, rows = above ++ row :: below ∧
      pinAt? m p row.1 row.2 = some (some hit) ∧
      ∀ k ∈ above, pinAt? m p k.1 k.2 = some none := by
  induction rows with
  | nil => cases h
  | cons row rest ih =>
    simp only [firstPin?, Option.bind_eq_bind, Option.bind_eq_some_iff] at h
    obtain ⟨found, hfound, h⟩ := h
    cases found with
    | some found =>
      cases h
      exact ⟨[], row, rest, rfl, hfound, fun _ hk => nomatch hk⟩
    | none =>
      obtain ⟨above, later, below, rfl, hlater, habove⟩ := ih h
      refine ⟨row :: above, later, below, rfl, hlater, fun k hk => ?_⟩
      rcases List.mem_cons.mp hk with rfl | hk
      · exact hfound
      · exact habove k hk

/-! ## The four passes -/

/-- The passes of a hit test, in the order in which they are made over the rows from the top
down. -/
inductive Passes (m : Metrics α) (p : Point α) (rows : List (Node α × Rect α)) : Hit → Prop
  | pin {hit : Hit} (h : firstPin? m p rows = some (some hit)) : Passes m p rows hit
  | node {n : Node α} {r : Rect α} (hpins : firstPin? m p rows = some none)
      (h : rows.find? (fun row => !row.1.isGroup && row.2.contains p) = some (n, r)) :
      Passes m p rows (.node n.id)
  | group {n : Node α} {r : Rect α} (hpins : firstPin? m p rows = some none)
      (hplain : rows.find? (fun row => !row.1.isGroup && row.2.contains p) = none)
      (h : rows.find? (fun row => row.1.isGroup && row.2.contains p) = some (n, r)) :
      Passes m p rows (.group n.id)
  | canvas (hpins : firstPin? m p rows = some none)
      (hplain : rows.find? (fun row => !row.1.isGroup && row.2.contains p) = none)
      (hgroup : rows.find? (fun row => row.1.isGroup && row.2.contains p) = none) :
      Passes m p rows .canvas

theorem passes_of_hitTest? {g : Graph α} {o : Overlay α} {hit : Hit}
    (h : g.hitTest? m o p = some hit) : Passes m p (g.drawn m o).reverse hit := by
  rw [hitTest?, List.filterMap_reverse] at h
  obtain ⟨found, hpins, h⟩ := Option.bind_eq_some_iff.mp h
  cases found with
  | some found =>
    cases h
    exact .pin hpins
  | none =>
    dsimp only at h
    split at h
    · rename_i hplain
      cases h
      exact .node hpins hplain
    · rename_i hplain
      split at h
      · rename_i hgroup
        cases h
        exact .group hpins hplain hgroup
      · rename_i hgroup
        cases h
        exact .canvas hpins hplain hgroup

theorem exists_of_find?_reverse {β : Type} {q : β → Bool} {rows : List β} {row : β}
    (h : rows.reverse.find? q = some row) :
    ∃ below above, rows = below ++ row :: above ∧ q row = true ∧ ∀ k ∈ above, q k = false := by
  obtain ⟨hrow, above, below, hrows, habove⟩ := List.find?_eq_some_iff_append.mp h
  refine ⟨below.reverse, above.reverse, ?_, hrow, fun k hk => ?_⟩
  · rw [← List.reverse_reverse rows, hrows]
    simp
  · simpa using habove k (List.mem_reverse.mp hk)

end Graph

/-! ## The frame -/

namespace Engine

open RenderNode (AtOutput AtInput OffPins OnPlain OnGroup)

variable (e : Engine α) (s : Store α) {m : Metrics α} {p : Point α}

/-- A node of a frame, from the row that it is drawn for. -/
def listed (row : Node α × Rect α) : RenderNode α :=
  e.renderNode s.graph (e.selection.filter fun i => (s.graph.lookup? i).isSome) row.1 row.2

theorem nodes_render :
    (e.render s).nodes = (s.graph.drawn s.metrics e.overlay).map (e.listed s) := by
  rw [Graph.drawn, List.map_filterMap]
  refine List.filterMap_congr fun n _ => ?_
  rw [Option.map_map]
  rfl

variable {e s}

theorem lists_render {below above : List (Node α × Rect α)} {row : Node α × Rect α}
    (hdrawn : s.graph.drawn s.metrics e.overlay = below ++ row :: above)
    {here later : RenderNode α → Prop} (hhere : here (e.listed s row))
    (hlater : ∀ k ∈ above, later (e.listed s k)) :
    (e.render s).Lists row.1.id here later := by
  refine ⟨below.map (e.listed s), e.listed s row, above.map (e.listed s), ?_, rfl, hhere, ?_⟩
  · rw [nodes_render, hdrawn, List.map_append, List.map_cons]
  · intro k hk
    obtain ⟨row, hrow, rfl⟩ := List.mem_map.mp hk
    exact hlater row hrow

theorem forall_mem_nodes_render {P : RenderNode α → Prop}
    (h : ∀ row ∈ s.graph.drawn s.metrics e.overlay, P (e.listed s row)) :
    ∀ n ∈ (e.render s).nodes, P n := by
  intro n hn
  rw [nodes_render] at hn
  obtain ⟨row, hrow, rfl⟩ := List.mem_map.mp hn
  exact h row hrow

variable (e s)

theorem offPins_listed {row : Node α × Rect α} (h : Graph.pinAt? m p row.1 row.2 = some none) :
    OffPins m p (e.listed s row) :=
  ⟨(Graph.near_of_pinAt?_eq_none h).1, (Graph.near_of_pinAt?_eq_none h).2⟩

theorem onPlain_listed_iff (row : Node α × Rect α) :
    OnPlain p (e.listed s row) ↔ (!row.1.isGroup && row.2.contains p) = true := by
  simp [OnPlain, listed, renderNode, Node.isGroup]

theorem onGroup_listed_iff (row : Node α × Rect α) :
    OnGroup p (e.listed s row) ↔ (row.1.isGroup && row.2.contains p) = true := by
  simp [OnGroup, listed, renderNode, Node.isGroup]

variable {e s}

theorem offPins_of_firstPin?
    (h : Graph.firstPin? s.metrics p (s.graph.drawn s.metrics e.overlay).reverse = some none) :
    ∀ n ∈ (e.render s).nodes, OffPins s.metrics p n :=
  forall_mem_nodes_render fun row hrow =>
    offPins_listed e s (Graph.pinAt?_of_firstPin?_eq_none h row (List.mem_reverse.mpr hrow))

theorem shows_of_firstPin? {hit : Hit}
    (h : Graph.firstPin? s.metrics p (s.graph.drawn s.metrics e.overlay).reverse =
      some (some hit)) :
    (e.render s).Shows s.metrics p hit := by
  obtain ⟨above, row, below, hrows, hrow, habove⟩ := Graph.exists_of_firstPin?_eq_some h
  have hdrawn : s.graph.drawn s.metrics e.overlay = below.reverse ++ row :: above.reverse := by
    rw [← List.reverse_reverse (s.graph.drawn _ _), hrows]
    simp
  have hlater (k) (hk : k ∈ above.reverse) : OffPins s.metrics p (e.listed s k) :=
    offPins_listed e s (habove k (List.mem_reverse.mp hk))
  rcases Graph.near_of_pinAt?_eq_some hrow with ⟨rfl, hnear⟩ | ⟨rfl, hnear⟩
  · show (e.render s).Lists row.1.id (AtOutput s.metrics p) (OffPins s.metrics p)
    exact lists_render hdrawn hnear hlater
  · show (e.render s).Lists row.1.id (AtInput s.metrics p) (OffPins s.metrics p)
    exact lists_render hdrawn hnear hlater

/-- Whichever pass finds something, the frame shows it. -/
theorem shows_of_passes {hit : Hit}
    (h : Graph.Passes s.metrics p (s.graph.drawn s.metrics e.overlay).reverse hit) :
    (e.render s).Shows s.metrics p hit := by
  cases h with
  | pin hpin => exact shows_of_firstPin? hpin
  | node hpins hfound =>
    obtain ⟨below, above, hdrawn, hrow, habove⟩ := Graph.exists_of_find?_reverse hfound
    refine ⟨lists_render hdrawn ((onPlain_listed_iff e s _).mpr hrow) fun k hk => ?_,
      offPins_of_firstPin? hpins⟩
    rw [onPlain_listed_iff, habove k hk]
    exact Bool.false_ne_true
  | group hpins hplain hfound =>
    obtain ⟨below, above, hdrawn, hrow, habove⟩ := Graph.exists_of_find?_reverse hfound
    refine ⟨lists_render hdrawn ((onGroup_listed_iff e s _).mpr hrow) fun k hk => ?_,
      fun n hn => ⟨?_, offPins_of_firstPin? hpins n hn⟩⟩
    · rw [onGroup_listed_iff, habove k hk]
      exact Bool.false_ne_true
    · refine forall_mem_nodes_render (P := fun n => ¬ OnPlain p n) (fun row hrow => ?_) n hn
      rw [onPlain_listed_iff]
      exact List.find?_eq_none.mp hplain row (List.mem_reverse.mpr hrow)
  | canvas hpins hplain hgroup =>
    refine fun n hn => ⟨?_, offPins_of_firstPin? hpins n hn⟩
    refine forall_mem_nodes_render (P := fun n => n.rect.contains p = false) (fun row hrow => ?_)
      n hn
    have hnoPlain := List.find?_eq_none.mp hplain row (List.mem_reverse.mpr hrow)
    have hnoGroup := List.find?_eq_none.mp hgroup row (List.mem_reverse.mpr hrow)
    cases hkind : row.1.isGroup <;> simp [hkind] at hnoPlain hnoGroup
    · exact hnoPlain
    · exact hnoGroup

end Engine

namespace Canvas

/-- Whatever a hit test finds on a canvas, the frame that is drawn of it shows. -/
theorem hit_shown (c : Canvas α) {p : Point α} {hit : Hit}
    (h : c.engine.hitTest? c.store p = some hit) :
    (c.engine.render c.store).Shows c.store.metrics p hit :=
  Engine.shows_of_passes (Graph.passes_of_hitTest? h)

/-- What builds a lens in an expanded group that lies in another one. -/
def nesting : List (Event Rat) :=
  [.edit (.addNode .group ⟨0, 0⟩), .edit (.addNode .group ⟨0, 0⟩),
    .edit (.addNode .lens ⟨600, 600⟩), .edit (.setParent "lens-4" (some "group-3")),
    .edit (.setParent "group-3" (some "group-2")), .toggle "group-2", .toggle "group-3"]

def nestedGroups : Canvas Rat :=
  (Canvas.mk (Store.startWith .counting exactMetrics) (.ofSize 1280 800)).run nesting

/-- The lens is being dragged. -/
def nestedDrag : Canvas Rat :=
  nestedGroups.run [.down ⟨700, 630⟩ true false, .move ⟨720, 700⟩]

theorem hit_shown_nested_drag :
    nestedDrag.engine.overlay ≠ [] ∧
      nestedDrag.engine.hitTest? nestedDrag.store ⟨700, 640⟩ = some (.group "group-3") ∧
      (nestedDrag.engine.render nestedDrag.store).Shows exactMetrics ⟨700, 640⟩
        (.group "group-3") := by
  have hhit : nestedDrag.engine.hitTest? nestedDrag.store ⟨700, 640⟩ =
      some (.group "group-3") := by
    decide +kernel
  exact ⟨by decide +kernel, hhit, nestedDrag.hit_shown hhit⟩

end Canvas
end PromptCanvas
