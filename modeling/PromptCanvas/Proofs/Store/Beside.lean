import PromptCanvas.Proofs.Store.Changes
import PromptCanvas.Proofs.Store.Invariant
import PromptCanvas.Proofs.Store.RoundTrip

/-!
# Adding a node beside another

A node that is added beside another is linked to it without a look at what might be against the
edge.  Nothing can be, except that neither kind may feed the other: the graph with the new edge is
sound, and a sound graph has no edge that would have been refused.  So the store that is left is the
one that comes of adding the node by itself and then asking for the edge, apart from the listeners,
who are told once instead of twice.
-/

namespace PromptCanvas
namespace Store

/-! ## The checked way -/

section Checked

variable {α : Type} (s : Store α)

/-- The node that is added next. -/
def newcomer (kind : Kind) (position : Point α) : Node α :=
  { id := s.ids.peek kind.name, kind, attributes := kind.starting, position, collapsed := true,
    parent := none }

/-- The store after a node was added. -/
def joined (kind : Kind) (position : Point α) : Store α :=
  { s with ids := s.ids.advance }.commit
    ⟨s.graph.nodes ++ [s.newcomer kind position], s.graph.edges⟩ s.links

/-- The edge that is drawn next. -/
def nextEdge (source target : String) : Edge := ⟨s.ids.peek edgeStem, source, target⟩

variable {s}

theorem addNode_eq {kind : Kind} (hk : kind ≠ .output) (position : Point α) :
    s.addNode kind position = (s.joined kind position, some (s.ids.peek kind.name)) := by
  rw [addNode, if_neg (by simpa using hk)]
  rfl

theorem addEdge_eq_some {source target : String} (h : s.refusal? source target = none) :
    s.addEdge source target =
      ({ s with ids := s.ids.advance }.commit
        ⟨s.graph.nodes, s.graph.edges ++ [s.nextEdge source target]⟩ (s.links.add source target),
        some (s.ids.peek edgeStem)) := by
  rw [addEdge, h]
  rfl

theorem addEdge_eq_none {source target : String} (h : s.refusal? source target ≠ none) :
    s.addEdge source target = (s, none) := by
  obtain ⟨r, hr⟩ := Option.ne_none_iff_exists'.mp h
  rw [addEdge, hr]

/-- If the graph with one more edge is sound, the edge is drawn. -/
theorem refusal?_eq_none_of_sound (hl : s.links = .ofEdges s.graph.edges) {e : Edge}
    (h : (Graph.mk s.graph.nodes (s.graph.edges ++ [e])).Sound) :
    s.refusal? e.source e.target = none := by
  rw [refusal?, hl]
  exact h.rejection?_eq_none

/-- An edge between kinds of which the first may not feed the second is not drawn. -/
theorem refusal?_ne_none {m n : Node α} (hids : (s.graph.nodes.map Node.id).Nodup)
    (hm : m ∈ s.graph.nodes) (hn : n ∈ s.graph.nodes) (h : m.kind.canFeed n.kind ≠ true) :
    s.refusal? m.id n.id ≠ none := by
  rw [refusal?, Ne, rejection?_eq_none_iff]
  rintro ⟨k, l, hk, hl, -, -, hfeed, -⟩
  rw [Graph.kindOf_of_mem hids hm, Option.some.injEq] at hk
  rw [Graph.kindOf_of_mem hids hn, Option.some.injEq] at hl
  rw [hk, hl] at h
  exact h hfeed

end Checked

/-! ## The short way -/

section Short

variable {α : Type} [Scalar α]

/-- The store after a node was added together with an edge. -/
def joinedBy (s : Store α) (kind : Kind) (position : Point α) (source target : String) : Store α :=
  let t := s.joined kind position
  let edges := s.graph.edges ++ [t.nextEdge source target]
  { s with ids := t.ids.advance }.commit ⟨t.graph.nodes, edges⟩ (.ofEdges edges)

variable {s : Store α}

theorem addConnected_eq {anchor : Node α} (ha : s.graph.node? anchor.id = some anchor) {kind : Kind}
    (hk : kind ≠ .output) :
    s.addConnected anchor.id kind =
      let position := s.besidePosition anchor (kind.canFeed anchor.kind)
      let id := s.ids.peek kind.name
      (if kind.canFeed anchor.kind then s.joinedBy kind position id anchor.id
        else if anchor.kind.canFeed kind then s.joinedBy kind position anchor.id id
        else { s.joined kind position with links := .ofEdges s.graph.edges }, some id) := by
  rw [addConnected, ha]
  dsimp only
  rw [if_neg (by simpa using hk)]
  split
  · rfl
  · split <;> rfl

/-- Two stores hold the same graph and the same links, and the same ids were drawn for them. -/
structure Agree (s t : Store α) : Prop where
  graph_eq : s.graph = t.graph
  ids_eq : s.ids = t.ids
  links_eq : s.links = t.links

omit [Scalar α] in
/-- An edge that is added with a node is the one that is drawn after the node was added, if the
graph that comes of it is sound. -/
theorem agree_joinedBy (hl : s.links = .ofEdges s.graph.edges) {kind : Kind} {position : Point α}
    {source target : String} (h : (s.joinedBy kind position source target).graph.Sound) :
    (s.joinedBy kind position source target).Agree
        ((s.joined kind position).addEdge source target).1 ∧
      (((s.joined kind position).addEdge source target).2 = none ↔
        (s.joinedBy kind position source target).graph.edges = s.graph.edges) := by
  have hdrawn : (s.joined kind position).refusal? source target = none :=
    refusal?_eq_none_of_sound (s := s.joined kind position) hl
      (e := (s.joined kind position).nextEdge source target) h
  have hlinks : Links.ofEdges (s.graph.edges ++ [(s.joined kind position).nextEdge source target]) =
      s.links.add source target := by
    rw [Links.ofEdges_append, hl]
    rfl
  rw [addEdge_eq_some hdrawn]
  refine ⟨⟨rfl, rfl, hlinks⟩, nofun, fun hedges => ?_⟩
  have hlength : (s.graph.edges ++ [_]).length = s.graph.edges.length := congrArg List.length hedges
  rw [List.length_append] at hlength
  exact absurd hlength (Nat.succ_ne_self _)

omit [Scalar α] in
/-- Where neither kind may feed the other, the edge that is asked for is refused, and none is added
with the node. -/
theorem agree_joined (hl : s.links = .ofEdges s.graph.edges) {kind : Kind} {position : Point α}
    {anchor : Node α} (ha : anchor ∈ s.graph.nodes) (hkind : anchor.kind.canFeed kind ≠ true)
    (h : (s.joined kind position).graph.Sound) :
    let t := s.joined kind position
    let asked := t.addEdge anchor.id (s.ids.peek kind.name)
    Agree { t with links := .ofEdges s.graph.edges } asked.1 ∧
      (asked.2 = none ↔ t.graph.edges = s.graph.edges) := by
  intro t asked
  have hrefused : t.refusal? anchor.id (s.ids.peek kind.name) ≠ none :=
    refusal?_ne_none (n := s.newcomer kind position) h.nodup_ids (List.mem_append_left _ ha)
      (List.mem_append_right _ (List.mem_singleton.mpr rfl)) hkind
  have hasked : asked = (t, none) := addEdge_eq_none hrefused
  rw [hasked]
  exact ⟨⟨rfl, rfl, hl.symm⟩, fun _ => rfl, fun _ => rfl⟩

end Short

/-! ## Both ways -/

variable {α : Type} [Scalar α]

/-- In a store that can be come to, a node that is added beside another is added as if by itself, at
its place beside the other, and linked as if the edge had then been asked for: into the other if its
kind may feed the other's, and else from the other.  The graph, the ids that were drawn and the
links are the same.  No edge is added exactly if the edge that is asked for is refused. -/
theorem addConnected_agrees {s : Store α} (h : s.Attained) {anchorId : String} {anchor : Node α}
    (ha : s.graph.node? anchorId = some anchor) {kind : Kind} (hk : kind ≠ .output)
    (hnew : s.DrawsNew (.addConnected anchorId kind)) :
    let feeds := kind.canFeed anchor.kind
    let short := s.addConnected anchorId kind
    let added := s.addNode kind (s.besidePosition anchor feeds)
    ∃ id, short.2 = some id ∧ added.2 = some id ∧
      let linked := if feeds then added.1.addEdge id anchorId else added.1.addEdge anchorId id
      short.1.Agree linked.1 ∧ (linked.2 = none ↔ short.1.graph.edges = s.graph.edges) := by
  intro feeds short added
  obtain ⟨hmem, rfl⟩ := Graph.mem_of_node? ha
  have hs := h.sound
  have hshort : short = _ := addConnected_eq ha hk
  have hadded : added = _ := addNode_eq hk _
  have hsound : short.1.graph.Sound := (hs.apply hnew).graph
  refine ⟨s.ids.peek kind.name, congrArg Prod.snd hshort, congrArg Prod.snd hadded, ?_⟩
  dsimp only
  rw [hadded]
  by_cases hfeeds : kind.canFeed anchor.kind = true
  · have hjoined := (congrArg Prod.fst hshort).trans (if_pos hfeeds)
    rw [if_pos hfeeds]
    rw [hjoined] at hsound ⊢
    exact agree_joinedBy hs.links hsound
  · rw [if_neg hfeeds]
    by_cases hback : anchor.kind.canFeed kind = true
    · have hjoined := (congrArg Prod.fst hshort).trans ((if_neg hfeeds).trans (if_pos hback))
      rw [hjoined] at hsound ⊢
      exact agree_joinedBy hs.links hsound
    · have hjoined := (congrArg Prod.fst hshort).trans ((if_neg hfeeds).trans (if_neg hback))
      rw [hjoined] at hsound ⊢
      exact agree_joined hs.links hmem hback hsound

/-- A subject that feeds the output. -/
def portrait : Store Float :=
  (startWith .counting usualMetrics).run [.addConnected "output-1" .subjectRoot]

/-- A body is linked into the subject, a comment is linked from it, and a lens is not linked. -/
theorem addConnected_agrees_portrait :
    let subject : Node Float := (startWith .counting usualMetrics).newcomer .subjectRoot
      ((startWith .counting usualMetrics).besidePosition (freshOutput .counting) true)
    let add (kind : Kind) : Store Float × Option String :=
      portrait.addNode kind (portrait.besidePosition subject (kind.canFeed .subjectRoot))
    portrait.Attained ∧ portrait.graph.node? "subject_root-2" = some subject ∧
      (portrait.addConnected "subject_root-2" .body).1.Agree
        ((add .body).1.addEdge "body-4" "subject_root-2").1 ∧
      (portrait.addConnected "subject_root-2" .comment).1.Agree
        ((add .comment).1.addEdge "subject_root-2" "comment-4").1 ∧
      ((add .lens).1.addEdge "subject_root-2" "lens-4").2 = none ∧
      (portrait.addConnected "subject_root-2" .lens).1.graph.edges = portrait.graph.edges := by
  intro subject add
  have hattained : portrait.Attained := (attained_startWith _ _).run (by decide +kernel)
  have hsubject : portrait.graph.node? "subject_root-2" = some subject := rfl
  have hbody : (add .body).2 = some "body-4" := by decide +kernel
  have hcomment : (add .comment).2 = some "comment-4" := by decide +kernel
  have hlens : (add .lens).2 = some "lens-4" := by decide +kernel
  have hrefused : ((add .lens).1.addEdge "subject_root-2" "lens-4").2 = none := by decide +kernel
  obtain ⟨body, -, hdrawn, hagree, -⟩ :=
    addConnected_agrees hattained hsubject (show Kind.body ≠ .output by decide) (by decide +kernel)
  obtain ⟨comment, -, hdrawn', hagree', -⟩ :=
    addConnected_agrees hattained hsubject (show Kind.comment ≠ .output by decide)
      (by decide +kernel)
  obtain ⟨lens, -, hdrawn'', -, hnone⟩ :=
    addConnected_agrees hattained hsubject (show Kind.lens ≠ .output by decide) (by decide +kernel)
  cases hdrawn.symm.trans hbody
  cases hdrawn'.symm.trans hcomment
  cases hdrawn''.symm.trans hlens
  exact ⟨hattained, hsubject, hagree, hagree', hrefused, hnone.mp hrefused⟩

end Store
end PromptCanvas
