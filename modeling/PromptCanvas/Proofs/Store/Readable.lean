import PromptCanvas.Proofs.Store.Changes

/-!
# Which documents load

A document loads unless loading stops at one of its entries.  Then it loads to the same graph as if
it held its readable entries alone.  Where the document was read from a text, there is one fault
only at which loading stops: a coordinate that is a whole number beyond every double.
-/

namespace PromptCanvas

namespace Document

/-- Loading stops at some entry of the document. -/
def Stops (document : Json) : Prop :=
  (∃ j ∈ (entries (members document).1 "nodes").1, Node.Stops j) ∨
    ∃ j ∈ (entries (members document).1 "edges").1, Edge.Stops j

/-- Some node of the document overflows. -/
def Overflows (document : Json) : Prop :=
  ∃ j ∈ (entries (members document).1 "nodes").1, Node.Overflows j

/-- Nothing that was read from a text stops loading but a huge coordinate. -/
theorem stops_iff_overflows {document : Json} (h : document.IsRead) :
    Stops document ↔ Overflows document := by
  constructor
  · rintro (⟨j, hj, hstops⟩ | ⟨j, hj, hstops⟩)
    · exact ⟨j, hj, (Node.stops_iff_overflows (h.displayable_of_mem hj)).mp hstops⟩
    · exact absurd hstops (Edge.not_stops_of_displayable (h.displayable_of_mem hj))
  · rintro ⟨j, hj, hover⟩
    exact Or.inl ⟨j, hj, .coordinate hover⟩

/-- The document with those entries only that can be read. -/
def readablePart (α : Type) [Scalar α] (document : Json) : Json :=
  let fields := (members document).1
  .obj [
    ("nodes", .arr ((entries fields "nodes").1.filter fun j =>
      (Node.ofEntry (α := α) j).toOption.isSome)),
    ("edges", .arr ((entries fields "edges").1.filter fun j =>
      (Edge.ofEntry j).toOption.isSome))]

variable {α : Type} [Scalar α]

/-- The nodes that can be read from some entries. -/
def readNodes (items : List Json) : List (Node α) :=
  items.filterMap fun j => (Node.ofEntry j).toOption

/-- What is kept when one more node was read. -/
def keepNode (kept : List (Node α)) (n : Node α) : List (Node α) :=
  if kept.any (·.id == n.id) || n.isOutput && kept.any Node.isOutput then kept else kept ++ [n]

theorem keepNodes_cons_of_ok (kept : List (Node α)) {j : Json} {n : Node α} (rest : List Json)
    (hn : Node.ofEntry j = .ok n) :
    ∃ drops, keepNodes kept (j :: rest) =
      (keepNodes (keepNode kept n) rest).map fun r => (r.1, drops ++ r.2) := by
  have hkeep : ∀ x : Except EntryError (List (Node α) × List LoadWarning),
      x.map (fun r => (r.1, [] ++ r.2)) = x := by
    intro x
    cases x <;> rfl
  rw [keepNodes, hn]
  dsimp only
  unfold keepNode
  by_cases hid : kept.any (·.id == n.id) = true
  · rw [hid]
    exact ⟨[.duplicateNode n.id], rfl⟩
  · rw [Bool.not_eq_true] at hid
    rw [hid]
    by_cases hout : (n.isOutput && kept.any Node.isOutput) = true
    · rw [hout]
      exact ⟨[.extraOutput n.id], rfl⟩
    · rw [Bool.not_eq_true] at hout
      rw [hout]
      exact ⟨[], (hkeep _).symm⟩

theorem keepNodes_cons_of_error {kept : List (Node α)} {j : Json} {e : EntryError}
    {rest : List Json} (hj : Node.ofEntry (α := α) j = .error e) (hgoes : ¬ Node.Stops j) :
    keepNodes kept (j :: rest) =
      (keepNodes kept rest).map fun r => (r.1, .unreadableNode :: r.2) := by
  rw [keepNodes, hj]
  dsimp only
  rw [(Node.passOver_eq_ok_iff_not_stops hj).mpr hgoes]

theorem keepNodes_eq_ok (kept : List (Node α)) {items : List Json}
    (h : ∀ j ∈ items, ¬ Node.Stops j) :
    ∃ ws, keepNodes kept items = .ok ((readNodes items).foldl keepNode kept, ws) := by
  induction items generalizing kept with
  | nil => exact ⟨[], rfl⟩
  | cons j rest ih =>
    obtain ⟨hj, hrest⟩ := List.forall_mem_cons.mp h
    cases hread : Node.ofEntry (α := α) j with
    | error e =>
      have hnodes : readNodes (α := α) (j :: rest) = readNodes rest := by
        rw [readNodes, List.filterMap_cons, hread]
        rfl
      obtain ⟨ws, hws⟩ := ih kept hrest
      rw [keepNodes_cons_of_error hread hj, hws, hnodes]
      exact ⟨_, rfl⟩
    | ok n =>
      have hnodes : readNodes (j :: rest) = n :: readNodes rest := by
        rw [readNodes, List.filterMap_cons, hread]
        rfl
      obtain ⟨ws, hws⟩ := ih (keepNode kept n) hrest
      obtain ⟨drops, hdrops⟩ := keepNodes_cons_of_ok kept rest hread
      rw [hdrops, hws, hnodes]
      exact ⟨_, rfl⟩

theorem exists_keepNodes_eq_error (kept : List (Node α)) {items : List Json}
    (h : ∃ j ∈ items, Node.Stops j) : ∃ e, keepNodes kept items = .error e := by
  induction items generalizing kept with
  | nil =>
    obtain ⟨j, hj, -⟩ := h
    exact absurd hj List.not_mem_nil
  | cons j rest ih =>
    by_cases hj : Node.Stops j
    · obtain ⟨e, he, -⟩ := hj.exists_error (α := α)
      rw [keepNodes, he]
      dsimp only
      cases hover : passOver [.key, .value, .type] j e with
      | ok u => exact absurd hj ((Node.passOver_eq_ok_iff_not_stops he).mp hover)
      | error f => exact ⟨f, rfl⟩
    · have hrest : ∃ i ∈ rest, Node.Stops i := by
        simpa only [List.exists_mem_cons_iff, hj, false_or] using h
      cases hread : Node.ofEntry (α := α) j with
      | error e =>
        obtain ⟨f, hf⟩ := ih kept hrest
        rw [keepNodes_cons_of_error hread hj, hf]
        exact ⟨f, rfl⟩
      | ok n =>
        obtain ⟨drops, hdrops⟩ := keepNodes_cons_of_ok kept rest hread
        obtain ⟨f, hf⟩ := ih (keepNode kept n) hrest
        rw [hdrops, hf]
        exact ⟨f, rfl⟩

/-! ## The readable part -/

/-- Leaving out what cannot be read does not change what is read. -/
theorem filterMap_filter_isSome {β γ : Type} (read : β → Option γ) (items : List β) :
    (items.filter fun i => (read i).isSome).filterMap read = items.filterMap read := by
  rw [List.filterMap_filter]
  refine List.filterMap_congr fun i _ => ?_
  cases read i <;> rfl

theorem not_stops_readablePart {document : Json} (h : ¬ Stops document) :
    ¬ Stops (readablePart α document) := by
  rintro (⟨j, hj, hstops⟩ | ⟨j, hj, hstops⟩)
  · exact h (Or.inl ⟨j, List.mem_of_mem_filter hj, hstops⟩)
  · exact h (Or.inr ⟨j, List.mem_of_mem_filter hj, hstops⟩)

theorem readNodes_readablePart (document : Json) :
    readNodes (α := α) (entries (members (readablePart α document)).1 "nodes").1 =
      readNodes (entries (members document).1 "nodes").1 :=
  filterMap_filter_isSome _ _

theorem edgesIn_readablePart (document : Json) :
    (edgesIn (entries (members (readablePart α document)).1 "edges").1).1 =
      (edgesIn (entries (members document).1 "edges").1).1 :=
  filterMap_filter_isSome _ _

end Document

namespace Store

open Document

variable {α : Type} [Scalar α]

theorem loaded_readablePart (s : Store α) (document : Json) (read : List (Node α)) :
    s.loaded (readablePart α document) read = s.loaded document read := by
  unfold loaded
  rw [edgesIn_readablePart]

theorem load_eq_ok (s : Store α) {document : Json} (h : ¬ Stops document) :
    ∃ ws, s.load document =
      (s.loaded document ((readNodes (entries (members document).1 "nodes").1).foldl keepNode []),
        .ok ws) := by
  obtain ⟨ws, hws⟩ := keepNodes_eq_ok ([] : List (Node α))
    fun j hj hstops => h (Or.inl ⟨j, hj, hstops⟩)
  have hedges := exists_readEdges_eq_ok_iff.mpr fun j hj hstops => h (Or.inr ⟨j, hj, hstops⟩)
  exact ⟨_, load_eq_ok_iff.mpr ⟨hedges, _, ws, hws, rfl, rfl⟩⟩

theorem not_stops_of_load_eq_ok {s t : Store α} {document : Json} {ws : List LoadWarning}
    (h : s.load document = (t, .ok ws)) : ¬ Stops document := by
  obtain ⟨hedges, read, ws', hnodes, -⟩ := load_eq_ok_iff.mp h
  rintro (hstops | ⟨j, hj, hstops⟩)
  · obtain ⟨e, he⟩ := exists_keepNodes_eq_error ([] : List (Node α)) hstops
    rw [hnodes] at he
    cases he
  · exact exists_readEdges_eq_ok_iff.mp hedges j hj hstops

/-- A document loads unless loading stops at one of its entries, which for a document that was read
from a text means that one of its nodes overflows.  What cannot be read is left out then, as if the
document did not have it, and the graph is sound, unless a fresh output gets the id of an entry. -/
theorem loads_iff_not_stops (s : Store α) (document : Json) :
    ((∃ t ws, s.load document = (t, .ok ws)) ↔ ¬ Stops document) ∧
    (document.IsRead → (Stops document ↔ Overflows document)) ∧
    ∀ t ws, s.load document = (t, .ok ws) →
      (s.ids.peek Kind.output.name ∉ Document.ids document → t.Sound) ∧
      ∃ ws', s.load (readablePart α document) = (t, .ok ws') := by
  refine ⟨⟨?_, ?_⟩, stops_iff_overflows, ?_⟩
  · rintro ⟨t, ws, hload⟩
    exact not_stops_of_load_eq_ok hload
  · intro h
    obtain ⟨ws, hload⟩ := s.load_eq_ok h
    exact ⟨_, ws, hload⟩
  · intro t ws hload
    refine ⟨fun hid => sound_of_load_eq_ok hload fun _ => hid, ?_⟩
    have h : ¬ Stops document := not_stops_of_load_eq_ok hload
    obtain ⟨ws₁, hwhole⟩ := s.load_eq_ok h
    obtain ⟨ws₂, hpart⟩ := s.load_eq_ok (not_stops_readablePart (α := α) h)
    rw [readNodes_readablePart, loaded_readablePart] at hpart
    rw [hload] at hwhole
    cases hwhole
    exact ⟨ws₂, hpart⟩

/-- A document without an output, and with an entry that has a place. -/
def placedAt (x : Json) : Json := .obj [
  ("nodes", .arr [
    .obj [("id", .str "a"), ("kind", .str "lens"), ("position", .obj [("x", x), ("y", .int 0)])],
    .obj [("id", .str "b"), ("kind", .str "lens")]]),
  ("edges", .arr [])]

theorem stops_placedAt {n : Int} (hn : Number.Huge n) : Stops (placedAt (.int n)) :=
  Or.inl ⟨_, List.mem_cons_self, .coordinate
    ⟨_, .lens, _, "a", _, rfl, rfl, rfl, rfl, rfl, Or.inl ⟨n, rfl, hn⟩⟩⟩

/-- A document with a node of no kind. -/
def misnamed : Json := .obj [("nodes", .arr [.obj [("id", .str "a"), ("kind", .str "prism")]])]

theorem isRead_misnamed : misnamed.IsRead := by
  have hnode : Json.Plain 1 (.obj [("id", .str "a"), ("kind", .str "prism")]) := by
    refine .record ["id", "kind"] rfl (by decide) (by decide) (List.forall_mem_cons.mpr ?_)
    exact ⟨.str ⟨"a", by decide⟩, List.forall_mem_singleton.mpr (.str ⟨"prism", by decide⟩)⟩
  have hnodes : Json.Plain 3 misnamed := by
    refine .record ["nodes"] rfl (by decide) (by decide) (List.forall_mem_singleton.mpr ?_)
    exact .arr (List.forall_mem_singleton.mpr hnode)
  exact hnodes.isRead (by decide)

theorem loads_iff_not_stops_placedAt :
    let s : Store Float := startWith .counting usualMetrics
    (∃ t ws ws', s.load (placedAt (.str "abc")) = (t, .ok ws) ∧ t.Sound ∧
      s.load (readablePart Float (placedAt (.str "abc"))) = (t, .ok ws')) ∧
    (¬ ∃ t ws, s.load (placedAt (.int (.ofNat (Nat.pow 10 400)))) = (t, .ok ws)) ∧
    misnamed.IsRead ∧ (Stops misnamed ↔ Overflows misnamed) := by
  intro s
  have hnew : s.ids.peek Kind.output.name ∉ Document.ids (placedAt (.str "abc")) := by
    decide +kernel
  have hsome : (s.load (placedAt (.str "abc"))).2.toOption.isSome = true := by decide +kernel
  have hhuge : Number.Huge (.ofNat (Nat.pow 10 400)) := by decide +kernel
  obtain ⟨-, -, hpart⟩ := loads_iff_not_stops s (placedAt (.str "abc"))
  obtain ⟨hloads, -⟩ := loads_iff_not_stops s (placedAt (.int (.ofNat (Nat.pow 10 400))))
  obtain ⟨-, hread, -⟩ := loads_iff_not_stops s misnamed
  refine ⟨?_, fun h => hloads.mp h (stops_placedAt hhuge), isRead_misnamed, hread isRead_misnamed⟩
  obtain ⟨t, ws, hload⟩ := exists_load_eq_ok hsome
  obtain ⟨hsound, ws', hpart⟩ := hpart t ws hload
  exact ⟨t, ws, ws', hload, hsound hnew, hpart⟩

/-- What is far out is not left out, though the rest of the document could be loaded. -/
theorem load_placedAt_farOut :
    let s : Store Float := startWith .counting usualMetrics
    let document := placedAt (.int (.ofNat (Nat.pow 10 400)))
    (s.load document).2 = .error .outOfRange ∧
      ∃ t ws, s.load (readablePart Float document) = (t, .ok ws) := by
  intro s document
  have hsome : (s.load (readablePart Float document)).2.toOption.isSome = true := by decide +kernel
  exact ⟨by decide +kernel, exists_load_eq_ok hsome⟩

end Store
end PromptCanvas
