import PromptCanvas.Proofs.Graph.Upstream
import PromptCanvas.Prompt.Compile

/-!
# Graphs with the same prompt

A prompt says what the nodes upstream of its root hold, and reads of a graph only that.  For two
graphs that correspond upstream of their roots, node for node with the same attributes, every
passage has the same clauses and stands in the same place, so the prompt, the images and the aspect
ratio are the same: `Corresponds.compileFrom_eq`.
-/

namespace PromptCanvas

/-- The attributes of the kind never reach a prompt. -/
def Kind.isSilent : Kind → Bool
  | .comment | .group | .assembler | .output => true
  | _ => false

/-- The second node stands for the first under a new id: it is of the same kind and holds the same
attributes, if these can reach a prompt.  Places, folding and parents do not matter. -/
structure Node.Counterpart {α β : Type} (f : String → String) (n : Node α) (n' : Node β) :
    Prop where
  id_eq : n'.id = f n.id
  kind_eq : n'.kind = n.kind
  attributes_eq : n.kind.isSilent = false → n'.attributesAs n.kind = n.attributesAs n.kind

namespace Prompt

variable {α β : Type}

theorem attributesAs_self (n : Node α) : n.attributesAs n.kind = some n.attributes :=
  dif_pos rfl

theorem attributesAs_of_ne {n : Node α} {k : Kind} (h : n.kind ≠ k) : n.attributesAs k = none :=
  dif_neg h

theorem attributesAs_eq {f : String → String} {n : Node α} {n' : Node β} (h : n.Counterpart f n')
    {k : Kind} (hk : k.isSilent = false) : n'.attributesAs k = n.attributesAs k := by
  by_cases hn : n.kind = k
  · subst hn
    exact h.attributes_eq hk
  · rw [attributesAs_of_ne hn, attributesAs_of_ne (h.kind_eq ▸ hn)]

/-- What is made of an id, a kind and attributes is the same for counterparts. -/
theorem apply_counterpart {γ : Type} {f : String → String} {n : Node α} {n' : Node β}
    (h : n.Counterpart f n') (hk : n.kind.isSilent = false)
    (make : String → (k : Kind) → k.Attributes → γ) :
    make n'.id n'.kind n'.attributes = make (f n.id) n.kind n.attributes := by
  obtain ⟨id', kind', attributes', position', collapsed', parent'⟩ := n'
  obtain ⟨hid, hkind, hattributes⟩ := h
  dsimp only at hid hkind
  subst hid hkind
  have hsame : some attributes' = some n.attributes :=
    (attributesAs_self ⟨_, _, attributes', position', collapsed', parent'⟩).symm.trans
      ((hattributes hk).trans (attributesAs_self n))
  rw [Option.some.inj hsame]

/-- Only inputs of the kind have attributes of the kind. -/
theorem inputAttributes_eq (g : Graph α) (id : String) (k : Kind) :
    inputAttributes g id k = (g.inputsOf id k).filterMap (·.attributesAs k) := by
  rw [inputAttributes, Graph.inputsOf, List.filterMap_filter]
  refine List.filterMap_congr fun n _ => ?_
  by_cases hn : n.kind = k
  · simp [hn]
  · simp [hn, attributesAs_of_ne hn]

/-- The clauses of a light source that is an input; none, if the node is none. -/
def sourceClausesOf (g : Graph α) (n : Node α) : List Clause :=
  match n.attributesAs .lightSource with
  | some a => lightSourceClauses g n.id a
  | none => []

theorem sourceClauses_eq (g : Graph α) (id : String) :
    sourceClauses g id = (g.inputsOf id .lightSource).flatMap (sourceClausesOf g) := by
  show (g.inputs id).flatMap (sourceClausesOf g) = _
  rw [Graph.inputsOf]
  induction g.inputs id with
  | nil => rfl
  | cons n ns ih =>
    rw [List.flatMap_cons, List.filter_cons, ih]
    by_cases hn : n.kind = .lightSource
    · rw [if_pos (beq_iff_eq.mpr hn), List.flatMap_cons]
    · have hnone : sourceClausesOf g n = [] := by rw [sourceClausesOf, attributesAs_of_ne hn]
      rw [if_neg (fun h => hn (beq_iff_eq.mp h)), hnone, List.nil_append]

/-- Only compositions have an aspect ratio. -/
theorem lastAspectRatio?_eq (found : List (Node α)) :
    lastAspectRatio? found = ((found.filter (·.kind == .composition)).filterMap fun n =>
      (n.attributesAs .composition).bind aspectRatio?).getLast? := by
  rw [lastAspectRatio?, List.filterMap_filter]
  refine congrArg List.getLast? (List.filterMap_congr fun n _ => ?_)
  by_cases hn : n.kind = .composition
  · simp [hn]
  · simp [hn, attributesAs_of_ne hn]

end Prompt

namespace Graph.Corresponds

open Prompt

variable {α β : Type} {f : String → String} {root : String} {g : Graph α} {g' : Graph β}
  (h : Corresponds (Node.Counterpart f) f root g g')
include h

section Clauses

variable {t : String} (ht : g.Upstream root t)
include ht

theorem inputAttributes_eq {k : Kind} (hk : k.isSilent = false) :
    inputAttributes g' (f t) k = inputAttributes g t k := by
  rw [Prompt.inputAttributes_eq, Prompt.inputAttributes_eq]
  exact filterMap_eq_of_related (h.inputsOf ht k) fun n _ n' hr => attributesAs_eq hr hk

theorem firstAttributes?_eq {k : Kind} (hk : k.isSilent = false) :
    firstAttributes? g' (f t) k = firstAttributes? g t k := by
  rw [firstAttributes?, h.inputAttributes_eq ht hk]
  rfl

theorem subjectRootClauses_eq (library : SubjectLibrary) (a : Kind.subjectRoot.Attributes) :
    subjectRootClauses g' library (f t) a = subjectRootClauses g library t a := by
  simp (disch := decide) only [subjectRootClauses, identityClauses, h.firstAttributes?_eq ht]

theorem cameraRootClauses_eq (a : Kind.cameraRoot.Attributes) :
    cameraRootClauses g' (f t) a = cameraRootClauses g t a := by
  simp (disch := decide) only [cameraRootClauses, h.firstAttributes?_eq ht]

theorem lightSourceClauses_eq (a : Kind.lightSource.Attributes) :
    lightSourceClauses g' (f t) a = lightSourceClauses g t a := by
  simp (disch := decide) only [lightSourceClauses, modifiers, h.inputAttributes_eq ht]

theorem sourceClauses_eq : sourceClauses g' (f t) = sourceClauses g t := by
  rw [Prompt.sourceClauses_eq, Prompt.sourceClauses_eq, List.flatMap_def, List.flatMap_def]
  refine congrArg List.flatten (map_eq_of_related (h.inputsOf ht .lightSource) fun n hn n' hr => ?_)
  have hup : g.Upstream root n.id := ht.input (mem_inputsOf.mp hn).1
  rw [sourceClausesOf, sourceClausesOf, attributesAs_eq hr rfl, hr.id_eq]
  simp only [h.lightSourceClauses_eq hup]

theorem lightingRootClauses_eq (a : Kind.lightingRoot.Attributes) :
    lightingRootClauses g' (f t) a = lightingRootClauses g t a := by
  simp (disch := decide) only [lightingRootClauses, h.sourceClauses_eq ht, h.inputAttributes_eq ht]

theorem environmentRootClauses_eq (a : Kind.environmentRoot.Attributes) :
    environmentRootClauses g' (f t) a = environmentRootClauses g t a := by
  simp (disch := decide) only [environmentRootClauses, h.firstAttributes?_eq ht]

theorem styleClauses_eq (a : Kind.style.Attributes) :
    styleClauses g' (f t) a = styleClauses g t a := by
  simp (disch := decide) only [styleClauses, h.inputAttributes_eq ht]

/-- A node upstream has the same clauses, whatever it holds. -/
theorem clausesOf_eq (library : SubjectLibrary) (k : Kind) (a : k.Attributes) :
    clausesOf g' library (f t) k a = clausesOf g library t k a := by
  cases k with
  | subjectRoot => exact h.subjectRootClauses_eq ht library a
  | cameraRoot => exact h.cameraRootClauses_eq ht a
  | lightingRoot => exact h.lightingRootClauses_eq ht a
  | lightSource => exact h.lightSourceClauses_eq ht a
  | environmentRoot => exact h.environmentRootClauses_eq ht a
  | style => exact h.styleClauses_eq ht a
  | _ => rfl

end Clauses

/-- Of each kind that reaches a prompt, the found nodes have the same passages. -/
theorem passagesOf_eq (library : SubjectLibrary) {kinds : List Kind}
    (hkinds : ∀ k ∈ kinds, k.isSilent = false) :
    passagesOf g' library (g'.feeders (f root)) kinds =
      passagesOf g library (g.feeders root) kinds := by
  refine List.flatMap_congr fun k hk => map_eq_of_related (h.feeders k) fun n hn n' hr => ?_
  obtain ⟨hn, hkind⟩ := List.mem_filter.mp hn
  have hsilent : n.kind.isSilent = false := by
    rw [eq_of_beq hkind]
    exact hkinds k hk
  rw [apply_counterpart hr hsilent (clausesOf g' library),
    h.clausesOf_eq (upstream_of_mem_feeders hn)]

theorem passages_eq (library : SubjectLibrary) :
    passages g' library (g'.feeders (f root)) = passages g library (g.feeders root) := by
  simp (disch := decide) only [passages, h.passagesOf_eq]

theorem lastAspectRatio?_eq :
    lastAspectRatio? (g'.feeders (f root)) = lastAspectRatio? (g.feeders root) := by
  rw [Prompt.lastAspectRatio?_eq, Prompt.lastAspectRatio?_eq]
  refine congrArg List.getLast? (filterMap_eq_of_related (h.feeders .composition) ?_)
  intro n _ n' hr
  rw [attributesAs_eq hr rfl]

/-- Graphs that correspond upstream of their roots have the same prompt, images and aspect ratio. -/
theorem compileFrom_eq (library : SubjectLibrary) (defaultRatio : String) :
    g'.compileFrom library defaultRatio (f root) = g.compileFrom library defaultRatio root := by
  rw [compileFrom, compileFrom]
  simp only [h.passages_eq, h.lastAspectRatio?_eq]

end Graph.Corresponds
end PromptCanvas
