import PromptCanvas.Proofs.Graph.Entries
import PromptCanvas.Proofs.Store.Edits
import PromptCanvas.Store.Load

/-!
# Loading

A document is loaded in three passes, and each has its own invariant.  The nodes that are kept have
distinct ids, no two of them are outputs, and their attributes fit.  With a fresh output where there
is none, and with every parent that is no group cleared, they are a sound graph without edges.  The
edges are then added one by one, and each of them keeps the graph sound.
-/

namespace PromptCanvas

namespace Document

/-- The ids that the entries of a document give themselves. -/
def ids (document : Json) : List String :=
  ((entries (members document).1 "nodes").1 ++ (entries (members document).1 "edges").1).filterMap
    entryId?

variable {α : Type}

/-! ## Nodes -/

/-- Nodes that may stand in one graph, but for an output and for their parents. -/
structure Compatible (nodes : List (Node α)) : Prop where
  nodup_ids : (nodes.map Node.id).Nodup
  outputs_le : nodes.countP Node.isOutput ≤ 1
  fits : ∀ n ∈ nodes, n.kind.Fits n.attributes

theorem compatible_nil : Compatible ([] : List (Node α)) :=
  ⟨List.nodup_nil, Nat.zero_le 1, fun _ h => absurd h List.not_mem_nil⟩

/-- One more node is compatible if its id is new and it is not a second output. -/
theorem Compatible.append {nodes : List (Node α)} (h : Compatible nodes) {n : Node α}
    (hid : n.id ∉ nodes.map Node.id) (hout : n.isOutput = true → nodes.any Node.isOutput = false)
    (hfits : n.kind.Fits n.attributes) : Compatible (nodes ++ [n]) := by
  refine ⟨?_, ?_, ?_⟩
  · exact nodup_map_append_singleton h.nodup_ids hid
  · rw [List.countP_append, List.countP_singleton]
    by_cases hn : n.isOutput = true
    · have hzero : nodes.countP Node.isOutput = 0 := by
        rw [List.countP_eq_zero]
        exact List.any_eq_false.mp (hout hn)
      simp [hzero, hn]
    · rw [if_neg hn]
      exact h.outputs_le
  · intro m hm
    rcases List.mem_append.mp hm with hm | hm
    · exact h.fits m hm
    · rw [List.mem_singleton.mp hm]
      exact hfits

variable [Scalar α]

/-- An entry for which there is no place beside some nodes, with the warning that says so. -/
inductive NodeLeftOut (nodes : List (Node α)) (j : Json) : LoadWarning → Prop
  | unreadable {e : EntryError} (he : Node.ofEntry (α := α) j = .error e) :
      NodeLeftOut nodes j .unreadableNode
  | duplicate {n : Node α} (hn : Node.ofEntry j = .ok n) (hid : n.id ∈ nodes.map Node.id) :
      NodeLeftOut nodes j (.duplicateNode n.id)
  | extraOutput {n : Node α} (hn : Node.ofEntry j = .ok n) (hout : n.isOutput = true)
      (hany : nodes.any Node.isOutput = true) : NodeLeftOut nodes j (.extraOutput n.id)

/-- An entry is left out with one warning, or its node is kept. -/
theorem keepNodes_cons_eq_ok {kept nodes : List (Node α)} {j : Json} {rest : List Json}
    {ws : List LoadWarning} (h : keepNodes kept (j :: rest) = .ok (nodes, ws)) :
    (∃ w ws', NodeLeftOut kept j w ∧ ws = w :: ws' ∧ keepNodes kept rest = .ok (nodes, ws')) ∨
      ∃ n, Node.ofEntry j = .ok n ∧ n.id ∉ kept.map Node.id ∧
        (n.isOutput = true → kept.any Node.isOutput = false) ∧
        keepNodes (kept ++ [n]) rest = .ok (nodes, ws) := by
  have hleft : ∀ w, NodeLeftOut kept j w →
      (keepNodes kept rest).map (fun r => (r.1, w :: r.2)) = .ok (nodes, ws) →
      ∃ w ws', NodeLeftOut kept j w ∧ ws = w :: ws' ∧ keepNodes kept rest = .ok (nodes, ws') := by
    intro w hw hmap
    obtain ⟨⟨nodes', ws'⟩, hrest, he⟩ := map_eq_ok.mp hmap
    cases he
    exact ⟨w, ws', hw, rfl, hrest⟩
  rw [keepNodes] at h
  dsimp only at h
  split at h
  · rename_i he
    split at h
    · exact Or.inl (hleft _ (.unreadable he) h)
    · cases h
  · rename_i n hn
    split at h
    · rename_i hid
      exact Or.inl (hleft _ (.duplicate hn (by simpa using hid)) h)
    · split at h
      · rename_i hid hout
        rw [Bool.and_eq_true] at hout
        exact Or.inl (hleft _ (.extraOutput hn hout.1 hout.2) h)
      · rename_i hid hout
        refine Or.inr ⟨n, hn, ?_, ?_, h⟩
        · simpa using hid
        · intro ho
          simpa [ho] using hout

/-- The nodes that are kept are compatible, and each of them comes from an entry. -/
theorem compatible_of_keepNodes {kept nodes : List (Node α)} {items : List Json}
    {ws : List LoadWarning} (h : keepNodes kept items = .ok (nodes, ws)) (hk : Compatible kept) :
    Compatible nodes ∧ ∀ n ∈ nodes, n ∈ kept ∨ ∃ j ∈ items, entryId? j = some n.id := by
  induction items generalizing kept ws with
  | nil =>
    rw [keepNodes] at h
    cases h
    exact ⟨hk, fun n hn => Or.inl hn⟩
  | cons j rest ih =>
    rcases keepNodes_cons_eq_ok h with ⟨w, ws', -, -, hrest⟩ | ⟨n, hn, hid, hout, hrest⟩
    · obtain ⟨hc, hfrom⟩ := ih hrest hk
      exact ⟨hc, fun m hm => (hfrom m hm).imp_right fun ⟨i, hi, he⟩ =>
        ⟨i, List.mem_cons_of_mem j hi, he⟩⟩
    · obtain ⟨hentry, hfits⟩ := Node.of_ofEntry_eq_ok hn
      obtain ⟨hc, hfrom⟩ := ih hrest (hk.append hid hout hfits)
      refine ⟨hc, fun m hm => ?_⟩
      rcases hfrom m hm with hm | ⟨i, hi, he⟩
      · rcases List.mem_append.mp hm with hm | hm
        · exact Or.inl hm
        · rw [List.mem_singleton.mp hm]
          exact Or.inr ⟨j, List.mem_cons_self, hentry⟩
      · exact Or.inr ⟨i, List.mem_cons_of_mem j hi, he⟩

/-- The nodes that were read, with a fresh output if none of them is one. -/
def completed (ids : IdSource) (read : List (Node α)) : List (Node α) :=
  if read.any Node.isOutput then read else read ++ [Store.freshOutput ids]

theorem compatible_completed (ids : IdSource) {read : List (Node α)} (h : Compatible read)
    (hid : read.any Node.isOutput = false →
      ids.peek Kind.output.name ∉ read.map Node.id) :
    Compatible (completed ids read) ∧ (completed ids read).countP Node.isOutput = 1 := by
  unfold completed
  by_cases ho : read.any Node.isOutput = true
  · rw [if_pos ho]
    have hpos : 0 < read.countP Node.isOutput := List.countP_pos_iff.mpr (List.any_eq_true.mp ho)
    exact ⟨h, Nat.le_antisymm h.outputs_le hpos⟩
  · rw [if_neg ho]
    rw [Bool.not_eq_true] at ho
    refine ⟨h.append (hid ho) (fun _ => ho) (Kind.fits_starting .output), ?_⟩
    have hzero : read.countP Node.isOutput = 0 := by
      rw [List.countP_eq_zero]
      exact List.any_eq_false.mp ho
    rw [List.countP_append, hzero]
    rfl

/-! ## Parents -/

omit [Scalar α] in
/-- A repaired node differs in its parent alone, which is a group. -/
theorem exists_repairParent (kindOf : String → Option Kind) (n : Node α) :
    ∃ q, (repairParent kindOf n).1 = { n with parent := q } ∧
      ∀ p, q = some p → kindOf p = some .group := by
  unfold repairParent
  split
  · rename_i hp
    exact ⟨n.parent, rfl, fun p hq => absurd (hp.symm.trans hq) (by simp)⟩
  · rename_i p hp
    split
    · rename_i hk
      refine ⟨n.parent, rfl, fun q hq => ?_⟩
      rw [hp, Option.some.injEq] at hq
      rw [← hq]
      exact eq_of_beq hk
    · exact ⟨none, rfl, fun _ h => nomatch h⟩

/-- Nodes by themselves, each with its parent repaired. -/
def repaired (nodes : List (Node α)) : List (Node α) :=
  (nodes.map (repairParent (Graph.mk nodes []).kindOf)).map Prod.fst

omit [Scalar α] in
theorem repaired_eq (nodes : List (Node α)) :
    repaired nodes = nodes.map fun n => (repairParent (Graph.mk nodes []).kindOf n).1 := by
  rw [repaired, List.map_map]
  rfl

omit [Scalar α] in
theorem map_id_repaired (nodes : List (Node α)) :
    (repaired nodes).map Node.id = nodes.map Node.id := by
  rw [repaired_eq, List.map_map]
  refine List.map_congr_left fun n _ => ?_
  obtain ⟨q, hq, -⟩ := exists_repairParent (Graph.mk nodes []).kindOf n
  show (repairParent _ n).1.id = n.id
  rw [hq]

omit [Scalar α] in
/-- Repairing parents keeps the kind that belongs to each id. -/
theorem kindOf_repaired (nodes : List (Node α)) (edges : List Edge) :
    (Graph.mk (repaired nodes) edges).kindOf = (Graph.mk nodes []).kindOf := by
  have hsame : ∀ n : Node α, (repairParent (Graph.mk nodes []).kindOf n).1.id = n.id ∧
      (repairParent (Graph.mk nodes []).kindOf n).1.kind = n.kind := by
    intro n
    obtain ⟨q, hq, -⟩ := exists_repairParent (Graph.mk nodes []).kindOf n
    rw [hq]
    exact ⟨rfl, rfl⟩
  funext id
  simp only [Graph.kindOf, Graph.lookup?, List.findRev?_eq_find?_reverse, repaired_eq,
    ← List.map_reverse, List.find?_map, Option.map_map, Function.comp_def, hsame]

omit [Scalar α] in
/-- Compatible nodes with one output are a sound graph once their parents are repaired. -/
theorem sound_repaired {nodes : List (Node α)} (h : Compatible nodes)
    (hout : nodes.countP Node.isOutput = 1) : (Graph.mk (repaired nodes) []).Sound := by
  refine ⟨?_, ?_, List.nodup_nil, ?_, ?_, List.nodup_nil, ?_, acyclic_nil, ?_, ?_⟩
  · rw [← hout, repaired_eq, List.countP_map]
    refine List.countP_congr fun n _ => ?_
    obtain ⟨q, hq, -⟩ := exists_repairParent (Graph.mk nodes []).kindOf n
    show (repairParent _ n).1.isOutput = true ↔ _
    rw [hq]
    rfl
  · exact map_id_repaired nodes ▸ h.nodup_ids
  · exact fun _ he => absurd he List.not_mem_nil
  · exact fun _ he => absurd he List.not_mem_nil
  · exact fun _ he => absurd he List.not_mem_nil
  · intro m hm p hp
    obtain ⟨n, -, rfl⟩ := List.mem_map.mp (repaired_eq nodes ▸ hm)
    obtain ⟨q, hq, hgroup⟩ := exists_repairParent (Graph.mk nodes []).kindOf n
    rw [hq] at hp
    have hk := hgroup p hp
    rw [← kindOf_repaired nodes []] at hk
    exact Graph.exists_of_kindOf hk
  · intro m hm
    obtain ⟨n, hn, rfl⟩ := List.mem_map.mp (repaired_eq nodes ▸ hm)
    obtain ⟨q, hq, -⟩ := exists_repairParent (Graph.mk nodes []).kindOf n
    rw [hq]
    exact h.fits n hn

/-! ## Edges -/

/-- The edges that can be read from some entries, with a warning for each other entry. -/
def edgesIn (items : List Json) : List Edge × List LoadWarning :=
  (items.filterMap fun j => (Edge.ofEntry j).toOption,
    items.filterMap fun j => match Edge.ofEntry j with
      | .ok _ => none
      | .error _ => some .malformedEdge)

theorem edgesIn_cons_of_ok {j : Json} {e : Edge} (rest : List Json) (h : Edge.ofEntry j = .ok e) :
    edgesIn (j :: rest) = (e :: (edgesIn rest).1, (edgesIn rest).2) := by
  rw [edgesIn, List.filterMap_cons, List.filterMap_cons, h]
  rfl

theorem edgesIn_cons_of_error {j : Json} {f : EntryError} (rest : List Json)
    (h : Edge.ofEntry j = .error f) :
    edgesIn (j :: rest) = ((edgesIn rest).1, .malformedEdge :: (edgesIn rest).2) := by
  rw [edgesIn, List.filterMap_cons, List.filterMap_cons, h]
  rfl

/-- Where reading the edges does not stop, it reads all that can be read. -/
theorem readEdges_eq_ok {items : List Json} {r : List Edge × List LoadWarning}
    (h : readEdges items = .ok r) : r = edgesIn items := by
  induction items generalizing r with
  | nil =>
    cases h
    rfl
  | cons j rest ih =>
    rw [readEdges] at h
    split at h
    · rename_i hj
      split at h
      · obtain ⟨⟨edges, ws⟩, hrest, he⟩ := map_eq_ok.mp h
        rw [edgesIn_cons_of_error rest hj, ← ih hrest, ← he]
      · cases h
    · rename_i hj
      obtain ⟨⟨edges, ws⟩, hrest, he⟩ := map_eq_ok.mp h
      rw [edgesIn_cons_of_ok rest hj, ← ih hrest, ← he]

omit [Scalar α] in
/-- An edge is left out with one warning, or nothing is against it and its id is new. -/
theorem keepEdges_cons (kindOf : String → Option Kind) (kept : List Edge) (links : Links) (e : Edge)
    (rest : List Edge) :
    (∃ r, (rejection? kindOf links e.source e.target = some r ∨
        r = .duplicateId ∧ e.id ∈ kept.map Edge.id) ∧
      keepEdges kindOf kept links (e :: rest) =
        ((keepEdges kindOf kept links rest).1,
          .droppedEdge e.id r :: (keepEdges kindOf kept links rest).2)) ∨
      rejection? kindOf links e.source e.target = none ∧ e.id ∉ kept.map Edge.id ∧
        keepEdges kindOf kept links (e :: rest) =
          keepEdges kindOf (kept ++ [e]) (links.add e.source e.target) rest := by
  rw [keepEdges]
  dsimp only
  split
  · rename_i r hr
    exact Or.inl ⟨r, Or.inl hr, rfl⟩
  · rename_i hr
    split
    · rename_i hid
      exact Or.inl ⟨.duplicateId, Or.inr ⟨rfl, by simpa using hid⟩, rfl⟩
    · rename_i hid
      exact Or.inr ⟨hr, by simpa using hid, rfl⟩

omit [Scalar α] in
/-- The links that are kept with edges are theirs. -/
theorem links_keepEdges (kindOf : String → Option Kind) (kept edges : List Edge) :
    (keepEdges kindOf kept (.ofEdges kept) edges).1.2 =
      .ofEdges (keepEdges kindOf kept (.ofEdges kept) edges).1.1 := by
  induction edges generalizing kept with
  | nil => rfl
  | cons e rest ih =>
    rcases keepEdges_cons kindOf kept (.ofEdges kept) e rest with ⟨r, -, hout⟩ | ⟨-, -, hin⟩
    · rw [hout]
      exact ih kept
    · rw [hin, ← Links.ofEdges_append]
      exact ih (kept ++ [e])

omit [Scalar α] in
/-- The edges that are kept leave a sound graph sound. -/
theorem sound_keepEdges {nodes : List (Node α)} {kindOf : String → Option Kind}
    (hkind : ∀ edges, (Graph.mk nodes edges).kindOf = kindOf) {kept : List Edge}
    (h : (Graph.mk nodes kept).Sound) (edges : List Edge) :
    (Graph.mk nodes (keepEdges kindOf kept (.ofEdges kept) edges).1.1).Sound := by
  induction edges generalizing kept with
  | nil => exact h
  | cons e rest ih =>
    rcases keepEdges_cons kindOf kept (.ofEdges kept) e rest with ⟨r, -, hout⟩ | ⟨hr, hid, hin⟩
    · rw [hout]
      exact ih h
    · rw [hin, ← Links.ofEdges_append]
      rw [← hkind kept] at hr
      exact ih (h.add_edge_of_rejection hid hr)

end Document

namespace Store

open Document

variable {α : Type} [Scalar α]

/-- The store when these nodes were read: a fresh output has drawn its id if none of them is one. -/
def readied (s : Store α) (read : List (Node α)) : Store α :=
  { s with ids := if read.any Node.isOutput then s.ids else s.ids.advance }

/-- The store after a document is loaded from which these nodes were read. -/
def loaded (s : Store α) (document : Json) (read : List (Node α)) : Store α :=
  let nodes := completed s.ids read
  let edges := (edgesIn (entries (members document).1 "edges").1).1
  let kept := (keepEdges (Graph.mk nodes []).kindOf [] [] edges).1
  (s.readied read).commit ⟨repaired nodes, kept.1⟩ kept.2

/-- What is said about a document from which these nodes were read, with these warnings. -/
def loadWarnings (s : Store α) (document : Json) (read : List (Node α)) (ws : List LoadWarning) :
    List LoadWarning :=
  let nodes := completed s.ids read
  let kindOf := (Graph.mk nodes []).kindOf
  let items := (entries (members document).1 "edges").1
  (members document).2 ++ (entries (members document).1 "nodes").2 ++ ws
    ++ (if read.any Node.isOutput then [] else [.noOutput])
    ++ (nodes.map (repairParent kindOf)).flatMap Prod.snd
    ++ (entries (members document).1 "edges").2 ++ (edgesIn items).2
    ++ (if hasCycle (edgesIn items).1 then [.cycle] else [])
    ++ (keepEdges kindOf [] [] (edgesIn items).1).2

/-- Loading stops while the nodes are read, or while the edges are read, or not at all. -/
theorem load_eq (s : Store α) (document : Json) :
    s.load document =
      match keepNodes [] (entries (members document).1 "nodes").1,
        readEdges (entries (members document).1 "edges").1 with
      | .error e, _ => (s, .error e)
      | .ok (read, _), .error e => (s.readied read, .error e)
      | .ok (read, ws), .ok _ =>
        (s.loaded document read, .ok (s.loadWarnings document read ws)) := by
  unfold load
  dsimp only
  cases keepNodes (α := α) [] (entries (members document).1 "nodes").1 with
  | error e => rfl
  | ok r =>
    cases hedges : readEdges (entries (members document).1 "edges").1 with
    | error e => rfl
    | ok edges =>
      cases readEdges_eq_ok hedges
      rfl

variable {s s' : Store α} {document : Json} {ws : List LoadWarning}

/-- A document was loaded if its nodes and its edges could be read. -/
theorem load_eq_ok_iff :
    s.load document = (s', .ok ws) ↔
      (∃ r, readEdges (entries (members document).1 "edges").1 = .ok r) ∧
      ∃ read ws', keepNodes [] (entries (members document).1 "nodes").1 = .ok (read, ws') ∧
        s' = s.loaded document read ∧ ws = s.loadWarnings document read ws' := by
  rw [load_eq]
  cases keepNodes (α := α) [] (entries (members document).1 "nodes").1 with
  | error e => exact iff_of_false nofun (by rintro ⟨-, read, ws', h, -⟩; cases h)
  | ok r =>
    obtain ⟨read, ws'⟩ := r
    cases readEdges (entries (members document).1 "edges").1 with
    | error e => exact iff_of_false nofun (by rintro ⟨⟨r, h⟩, -⟩; cases h)
    | ok edges =>
      constructor
      · intro h
        cases h
        exact ⟨⟨edges, rfl⟩, read, ws', rfl, rfl, rfl⟩
      · rintro ⟨-, read, ws', h, rfl, rfl⟩
        cases h
        rfl

theorem exists_load_eq_ok (h : (s.load document).2.toOption.isSome = true) :
    ∃ s' ws, s.load document = (s', .ok ws) := by
  rcases hload : s.load document with ⟨s', _ | ws⟩
  · rw [hload] at h
    cases h
  · exact ⟨s', ws, rfl⟩

/-- Whatever was in the store before, a loaded graph is sound, unless a fresh output got the id of
an entry. -/
theorem sound_of_load_eq_ok (h : s.load document = (s', .ok ws))
    (hid : s.ids.drawn < s'.ids.drawn → s.ids.peek Kind.output.name ∉ Document.ids document) :
    s'.Sound := by
  obtain ⟨-, read, w, hread, rfl, -⟩ := load_eq_ok_iff.mp h
  obtain ⟨hread, hfrom⟩ := compatible_of_keepNodes hread compatible_nil
  obtain ⟨hall, hout⟩ := compatible_completed s.ids hread fun hnone hmem => by
    obtain ⟨n, hn, hpeek⟩ := List.mem_map.mp hmem
    rcases hfrom n hn with hn | ⟨j, hj, hentry⟩
    · exact absurd hn List.not_mem_nil
    · refine hid ?_ (List.mem_filterMap.mpr ⟨j, List.mem_append_left _ hj, hpeek ▸ hentry⟩)
      show s.ids.drawn < (if read.any Node.isOutput then s.ids else s.ids.advance).drawn
      rw [hnone]
      exact Nat.lt_succ_self s.ids.drawn
  refine ⟨?_, links_keepEdges _ [] _⟩
  exact sound_keepEdges (kindOf_repaired _) (sound_repaired hall hout)
    (edgesIn (entries (members document).1 "edges").1).1

end Store
end PromptCanvas
