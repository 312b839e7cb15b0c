import PromptCanvas.Proofs.Prompt.Clean
import PromptCanvas.Proofs.Prompt.Said

/-!
# Emptying texts that say nothing

A free text that says nothing may be emptied, in any number of nodes, and the prompt stays the same,
with one exception.  A body takes the place of its subject as soon as it has a text, even if that
says nothing.  So a text of the subject is uncovered when such a text of its body is emptied.
-/

namespace PromptCanvas

open Prompt

/-! ## Records -/

/-- The second value is the first, or a free text that says nothing was emptied. -/
def Field.Emptied : (f : Field) → f.type.Value → f.type.Value → Prop
  | ⟨name, .text, _⟩, v, v' => v' = v ∨ name ≠ "selected_subject_id" ∧ isSet v = false ∧ v' = none
  | _, v, v' => v' = v

/-- The second values are the first, but for free texts that say nothing and were emptied. -/
def Attributes.Emptied : (fs : List Field) → Attributes fs → Attributes fs → Prop
  | [], _, _ => True
  | f :: fs, (v, rest), (v', rest') => f.Emptied v v' ∧ Emptied fs rest rest'

theorem Field.Emptied.refl (f : Field) (v : f.type.Value) : f.Emptied v v := by
  obtain ⟨name, type, initial⟩ := f
  cases type with
  | text => exact Or.inl rfl
  | _ => exact rfl

theorem Field.Emptied.said_eq {f : Field} {v v' : f.type.Value} (h : f.Emptied v v') :
    f.said v' = f.said v := by
  obtain ⟨name, type, initial⟩ := f
  cases type with
  | text =>
    rcases h with rfl | ⟨hname, hunset, rfl⟩
    · rfl
    · show (if name = _ then none else filled? none) = if name = _ then v else filled? v
      rw [if_neg hname, if_neg hname, filled?_eq_none hunset]
      rfl
  | _ => exact congrArg _ h

theorem Attributes.Emptied.refl (fs : List Field) (a : Attributes fs) : Emptied fs a a := by
  induction fs with
  | nil => trivial
  | cons f fs ih => exact ⟨Field.Emptied.refl f a.1, ih a.2⟩

theorem Attributes.Emptied.said_eq {fs : List Field} {a a' : Attributes fs}
    (h : Emptied fs a a') : said fs a' = said fs a := by
  induction fs with
  | nil => rfl
  | cons f fs ih => exact Prod.ext h.1.said_eq (ih h.2)

/-! ## Graphs -/

/-- The second node is the first, but for free texts that say nothing and were emptied. -/
def Node.Emptied {α : Type} (n n' : Node α) : Prop :=
  ∃ a, Attributes.Emptied n.kind.fields n.attributes a ∧ n' = { n with attributes := a }

namespace Node.Emptied

variable {α : Type} {n n' : Node α}

theorem refl (n : Node α) : n.Emptied n := ⟨n.attributes, Attributes.Emptied.refl _ _, rfl⟩

theorem id_eq (h : n.Emptied n') : n'.id = n.id := by
  obtain ⟨a, -, rfl⟩ := h
  rfl

theorem kind_eq (h : n.Emptied n') : n'.kind = n.kind := by
  obtain ⟨a, -, rfl⟩ := h
  rfl

theorem attributesAs (h : n.Emptied n') (k : Kind) :
    Option.Rel (Attributes.Emptied k.fields) (n.attributesAs k) (n'.attributesAs k) := by
  obtain ⟨a, ha, rfl⟩ := h
  by_cases hk : n.kind = k
  · subst hk
    rw [attributesAs_self, attributesAs_self ⟨n.id, n.kind, a, n.position, n.collapsed, n.parent⟩]
    exact .some ha
  · have hnone : ({ n with attributes := a } : Node α).attributesAs k = none :=
      attributesAs_of_ne hk
    rw [attributesAs_of_ne hk, hnone]
    exact .none

end Node.Emptied

namespace Graph

variable {α : Type}

/-- The second graph is the first, but for free texts that say nothing and were emptied. -/
structure Emptied (g g' : Graph α) : Prop where
  nodes : List.Forall₂ Node.Emptied g.nodes g'.nodes
  edges_eq : g'.edges = g.edges

theorem rel_head? {γ : Type} {R : γ → γ → Prop} {cs ds : List γ} (h : List.Forall₂ R cs ds) :
    Option.Rel R cs.head? ds.head? := by
  cases h with
  | nil => exact .none
  | cons hr _ => exact .some hr

theorem map_eq_of_rel {γ δ : Type} {R : γ → γ → Prop} {o o' : Option γ} (h : Option.Rel R o o')
    {φ : γ → δ} (hφ : ∀ c d, R c d → φ d = φ c) : o'.map φ = o.map φ := by
  cases h with
  | none => rfl
  | some hr => exact congrArg some (hφ _ _ hr)

theorem rel_orElse {γ : Type} {R : γ → γ → Prop} {o o' p p' : Option γ} (h : Option.Rel R o o')
    (hp : Option.Rel R p p') : Option.Rel R (o.orElse fun _ => p) (o'.orElse fun _ => p') := by
  cases h with
  | none => exact hp
  | some hr => exact .some hr

theorem rel_find? {R : Node α → Node α → Prop} {p : Node α → Bool}
    (hp : ∀ n n', R n n' → p n' = p n) {ns ns' : List (Node α)} (h : List.Forall₂ R ns ns') :
    Option.Rel R (ns.find? p) (ns'.find? p) := by
  induction h with
  | nil => exact .none
  | cons hr _ ih =>
    rw [List.find?_cons, List.find?_cons, hp _ _ hr]
    split
    · exact .some hr
    · exact ih

namespace Emptied

variable {g g' : Graph α} (h : g.Emptied g')
include h

theorem lookup? (id : String) : Option.Rel Node.Emptied (g.lookup? id) (g'.lookup? id) := by
  rw [Graph.lookup?, Graph.lookup?, List.findRev?_eq_find?_reverse, List.findRev?_eq_find?_reverse]
  refine rel_find? (fun n n' hn => ?_) (List.forall₂_reverse_iff.mpr h.nodes)
  rw [hn.id_eq]

theorem inputs (id : String) : List.Forall₂ Node.Emptied (g.inputs id) (g'.inputs id) := by
  rw [Graph.inputs, Graph.inputs, h.edges_eq]
  refine List.rel_filterMap ?_ (List.forall₂_eq_eq_eq ▸ rfl : List.Forall₂ Eq g.edges g.edges)
  rintro e _ rfl
  dsimp only
  split
  · exact h.lookup? e.source
  · exact .none

theorem corresponds (root : String) : Corresponds Node.Emptied id root g g' where
  id_eq := Node.Emptied.id_eq
  kind_eq := Node.Emptied.kind_eq
  injOn := Set.injOn_id _
  hubs t _ := List.rel_filter (fun n n' hn => iff_of_eq (by simp only [hn.kind_eq])) (h.inputs t)
  others t _ k _ :=
    List.rel_filter (fun n n' hn => iff_of_eq (by simp only [hn.kind_eq])) (h.inputs t)

theorem inputAttributes (id : String) (k : Kind) :
    List.Forall₂ (Attributes.Emptied k.fields) (inputAttributes g id k)
      (inputAttributes g' id k) :=
  List.rel_filterMap (fun _ _ hn => hn.attributesAs k) (h.inputs id)

theorem firstAttributes? (id : String) (k : Kind) :
    Option.Rel (Attributes.Emptied k.fields) (firstAttributes? g id k)
      (firstAttributes? g' id k) :=
  rel_head? (h.inputAttributes id k)

/-- Clauses of an input are the same if they ask what its texts say. -/
theorem first_eq {γ : Type} {k : Kind} (make : Option k.Attributes → γ)
    (hsaid : ∀ o, make (o.map k.said) = make o) (id : String) :
    make (Prompt.firstAttributes? g' id k) = make (Prompt.firstAttributes? g id k) := by
  have hsame : (Prompt.firstAttributes? g' id k).map k.said =
      (Prompt.firstAttributes? g id k).map k.said :=
    map_eq_of_rel (h.firstAttributes? id k) fun _ _ ha => ha.said_eq
  rw [← hsaid, hsame, hsaid]

theorem modifiers_eq (id : String) : modifiers g' id = modifiers g id := by
  refine filterMap_eq_of_related (h.inputAttributes id .lightModifier) fun a _ a' ha => ?_
  obtain ⟨label, type, ⟨⟩⟩ := a
  obtain ⟨label', type', ⟨⟩⟩ := a'
  have hsaid : (filled? label', filled? type', ()) = (filled? label, filled? type, ()) := ha.said_eq
  exact congrArg (fun said => said.2.1) hsaid

theorem lightSourceClauses_eq (id : String) (a : Kind.lightSource.Attributes) :
    lightSourceClauses g' id a = lightSourceClauses g id a := by
  simp only [lightSourceClauses, h.modifiers_eq]

theorem sourceClauses_eq (id : String) : sourceClauses g' id = sourceClauses g id := by
  have hget : ∀ (g : Graph α) (n : Node α), sourceClausesOf g n =
      ((n.attributesAs .lightSource).map (lightSourceClauses g n.id)).getD [] := by
    intro g n
    rw [sourceClausesOf]
    cases n.attributesAs .lightSource <;> rfl
  show (g'.inputs id).flatMap (sourceClausesOf g') = (g.inputs id).flatMap (sourceClausesOf g)
  rw [List.flatMap_def, List.flatMap_def]
  refine congrArg List.flatten (map_eq_of_related (h.inputs id) fun n _ n' hn => ?_)
  have hsame : ∀ a a', Attributes.Emptied Kind.lightSource.fields a a' →
      lightSourceClauses g n.id a' = lightSourceClauses g n.id a := by
    intro a a' ha
    rw [← lightSourceClauses_said g n.id a', ← lightSourceClauses_said g n.id a]
    exact congrArg (lightSourceClauses g n.id) ha.said_eq
  have hgraph : lightSourceClauses g' n.id = lightSourceClauses g n.id :=
    funext (h.lightSourceClauses_eq n.id)
  rw [hget, hget, hn.id_eq, hgraph, map_eq_of_rel (hn.attributesAs .lightSource) hsame]

theorem ambient_eq (id : String) :
    (Prompt.inputAttributes g' id .globalIllumination).flatMap ambientClauses =
      (Prompt.inputAttributes g id .globalIllumination).flatMap ambientClauses := by
  rw [List.flatMap_def, List.flatMap_def]
  refine congrArg List.flatten
    (map_eq_of_related (h.inputAttributes id .globalIllumination) fun a _ a' ha => ?_)
  rw [← ambientClauses_said a', ← ambientClauses_said a]
  exact congrArg ambientClauses ha.said_eq

theorem styleClauses_eq (id : String) (a : Kind.style.Attributes) :
    styleClauses g' id a = styleClauses g id a := by
  have himages : ∀ c ∈ Prompt.inputAttributes g id .reference, ∀ d,
      Attributes.Emptied Kind.reference.fields c d →
        d.2.1.map (Clause.mention .style) = c.2.1.map (Clause.mention .style) :=
    fun _ _ _ ha => congrArg _ ha.2.1
  have hrow := filterMap_eq_of_related (h.inputAttributes id .reference) himages
  exact congrArg (_ ++ ·) hrow

theorem identityClauses_eq (id : String) (mode : Consistency) :
    identityClauses g' id mode = identityClauses g id mode := by
  have himage : (Prompt.firstAttributes? g' id .reference).map (·.2.1) =
      (Prompt.firstAttributes? g id .reference).map (·.2.1) :=
    map_eq_of_rel (h.firstAttributes? id .reference) fun _ _ ha => ha.2.1
  have hget : ∀ g : Graph α, identityClauses g id mode =
      (((Prompt.firstAttributes? g id .reference).map (·.2.1)).join.map
        (Clause.mention (.identity mode))).toList := by
    intro g
    rw [identityClauses]
    rcases Prompt.firstAttributes? g id .reference with _ | ⟨label, _ | image, ⟨⟩⟩ <;> rfl
  rw [hget, hget, himage]

end Emptied
end Graph

/-! ## Bodies -/

namespace Prompt

/-- The text is there and says nothing. -/
def isHollow (v : Option String) : Bool := v.any (!·.isEmpty) && !isSet v

/-- A text of a subject says something, and it stood behind a hollow text of the body, which was
emptied. -/
def Uncovered (body body' : Kind.body.Attributes) (own : Kind.subjectRoot.Attributes) : Prop :=
  ∃ t : Trait, isHollow (t.ofBody body) = true ∧ t.ofBody body' = none ∧
    isSet (t.ofSubject own) = true

theorem filled?_preferBody_of_emptied {v v' own : Option String}
    (h : v' = v ∨ isSet v = false ∧ v' = none)
    (hcovered : isHollow v = true → v' = none → isSet own = false) :
    filled? (preferBody v' own) = filled? (preferBody v own) := by
  rcases h with rfl | ⟨hunset, rfl⟩
  · rfl
  · cases v with
    | none => rfl
    | some s =>
      by_cases hs : s.isEmpty = true
      · rw [preferBody, preferBody, if_pos hs]
      · have hhollow : isHollow (some s) = true := by simp [isHollow, hs, hunset]
        rw [preferBody, preferBody, if_neg hs, filled?_eq_none hunset,
          filled?_eq_none (hcovered hhollow rfl)]

theorem emptied_ofBody {body body' : Kind.body.Attributes}
    (h : Attributes.Emptied Kind.body.fields body body') (t : Trait) :
    t.ofBody body' = t.ofBody body ∨ isSet (t.ofBody body) = false ∧ t.ofBody body' = none := by
  obtain ⟨-, -, hage, hethnicity, hphysique, -⟩ := h
  cases t with
  | age => exact hage.imp_right And.right
  | ethnicity => exact hethnicity.imp_right And.right
  | physique => exact hphysique.imp_right And.right

theorem personClauses_of_emptied {o o' : Option Kind.body.Attributes}
    {own : Kind.subjectRoot.Attributes}
    (h : Option.Rel (Attributes.Emptied Kind.body.fields) o o')
    (hcovered : ∀ body body', o = some body → o' = some body' → ¬ Uncovered body body' own) :
    personClauses o' own = personClauses o own := by
  cases h with
  | none => rfl
  | @some body body' ha =>
    have htrait : ∀ t : Trait, filled? (t.preferred (some body') own) =
        filled? (t.preferred (some body) own) := by
      intro t
      refine filled?_preferBody_of_emptied (emptied_ofBody ha t) fun hhollow hnone => ?_
      rw [← Bool.not_eq_true]
      exact fun hset => hcovered body body' rfl rfl ⟨t, hhollow, hnone, hset⟩
    have hgender : body'.2.1 = body.2.1 := ha.2.1
    have hskin : body'.2.2.2.2.2.1 = body.2.2.2.2.2.1 := ha.2.2.2.2.2.1
    rw [personClauses_eq, personClauses_eq, ← personOf_filled?, ← personOf_filled? own.1]
    simp only [htrait, Option.bind_some, hgender, hskin]

end Prompt

namespace Graph

variable {α : Type}

/-- Emptying texts uncovers no text of a subject. -/
def KeepsCovered (g g' : Graph α) : Prop :=
  ∀ r ∈ g.nodes, ∀ own, r.attributesAs .subjectRoot = some own → ∀ body body',
    firstAttributes? g r.id .body = some body → firstAttributes? g' r.id .body = some body' →
      ¬ Uncovered body body' own

namespace Emptied

variable {g g' : Graph α} (h : g.Emptied g')
include h

theorem subjectRootClauses_eq (library : SubjectLibrary) {id : String}
    {own : Kind.subjectRoot.Attributes}
    (hcovered : ∀ body body', Prompt.firstAttributes? g id .body = some body →
      Prompt.firstAttributes? g' id .body = some body' → ¬ Uncovered body body' own) :
    subjectRootClauses g' library id own = subjectRootClauses g library id own := by
  have hperson := personClauses_of_emptied (h.firstAttributes? id .body) hcovered
  have hface := h.first_eq faceClauses faceClauses_said id
  have hhair := h.first_eq hairClauses hairClauses_said id
  have hpose := h.first_eq poseClauses poseClauses_said id
  have hattire : ∀ props, attireClauses (Prompt.firstAttributes? g' id .attire) props =
      attireClauses (Prompt.firstAttributes? g id .attire) props := by
    intro props
    exact h.first_eq (attireClauses · props) (attireClauses_said · props) id
  simp only [subjectRootClauses, h.identityClauses_eq, hperson, hface, hhair, hattire, hpose]

theorem cameraRootClauses_eq (id : String) (a : Kind.cameraRoot.Attributes) :
    cameraRootClauses g' id a = cameraRootClauses g id a := by
  have hlens := h.first_eq lensClauses lensClauses_said id
  have hfilm := h.first_eq filmClauses filmClauses_said id
  have hexposure := h.first_eq exposureClauses exposureClauses_said id
  simp only [cameraRootClauses, hlens, hfilm, hexposure]

theorem lightingRootClauses_eq (id : String) (a : Kind.lightingRoot.Attributes) :
    lightingRootClauses g' id a = lightingRootClauses g id a := by
  simp only [lightingRootClauses, h.sourceClauses_eq, h.ambient_eq]

theorem environmentRootClauses_eq (id : String) (a : Kind.environmentRoot.Attributes) :
    environmentRootClauses g' id a = environmentRootClauses g id a := by
  have hlocation := h.first_eq locationClauses locationClauses_said id
  have hatmosphere := h.first_eq atmosphereClauses atmosphereClauses_said id
  simp only [environmentRootClauses, hlocation, hatmosphere]

/-- A node has the same clauses beside the inputs of either graph, unless a text is uncovered. -/
theorem clausesOf_eq (hcovered : g.KeepsCovered g') (library : SubjectLibrary) {n : Node α}
    (hn : n ∈ g.nodes) :
    clausesOf g' library n.id n.kind n.attributes =
      clausesOf g library n.id n.kind n.attributes := by
  obtain ⟨id, kind, a, position, collapsed, parent⟩ := n
  cases kind with
  | subjectRoot =>
    exact h.subjectRootClauses_eq library (hcovered _ hn a (attributesAs_self _))
  | cameraRoot => exact h.cameraRootClauses_eq id a
  | lightingRoot => exact h.lightingRootClauses_eq id a
  | lightSource => exact h.lightSourceClauses_eq id a
  | environmentRoot => exact h.environmentRootClauses_eq id a
  | style => exact h.styleClauses_eq id a
  | _ => rfl

theorem clausesOf_emptied (hcovered : g.KeepsCovered g') (library : SubjectLibrary)
    {n n' : Node α} (hn : n ∈ g.nodes) (hemptied : n.Emptied n') (hk : n.kind.isSilent = false) :
    clausesOf g' library n'.id n'.kind n'.attributes =
      clausesOf g library n.id n.kind n.attributes := by
  -- The inputs are changed first, with the record as it was, and then the record itself.
  obtain ⟨a, ha, rfl⟩ := hemptied
  rw [← h.clausesOf_eq hcovered library hn]
  show clausesOf g' library n.id n.kind a = _
  have hsaid : n.kind.said a = n.kind.said n.attributes := ha.said_eq
  rw [← clausesOf_said g' library n.id hk a, hsaid, clausesOf_said g' library n.id hk]

theorem passagesOf_eq (hcovered : g.KeepsCovered g') (library : SubjectLibrary) (root : String)
    {kinds : List Kind} (hkinds : ∀ k ∈ kinds, k.isSilent = false) :
    passagesOf g' library (g'.feeders root) kinds =
      passagesOf g library (g.feeders root) kinds := by
  refine List.flatMap_congr fun k hk => ?_
  refine map_eq_of_related ((h.corresponds root).feeders k) fun n hn n' hemptied => ?_
  obtain ⟨hfound, hkind⟩ := List.mem_filter.mp hn
  have hsilent : n.kind.isSilent = false := by
    rw [eq_of_beq hkind]
    exact hkinds k hk
  have hmem : n ∈ g.nodes := by
    rw [feeders_eq] at hfound
    obtain ⟨id, -, hlookup⟩ := List.mem_filterMap.mp hfound
    exact (mem_of_lookup? hlookup).1
  rw [h.clausesOf_emptied hcovered library hmem hemptied hsilent]

theorem passages_eq (hcovered : g.KeepsCovered g') (library : SubjectLibrary) (root : String) :
    passages g' library (g'.feeders root) = passages g library (g.feeders root) := by
  simp (disch := decide) only [passages, h.passagesOf_eq hcovered]

theorem lastAspectRatio?_eq (root : String) :
    lastAspectRatio? (g'.feeders root) = lastAspectRatio? (g.feeders root) := by
  rw [Prompt.lastAspectRatio?_eq, Prompt.lastAspectRatio?_eq]
  refine congrArg List.getLast?
    (filterMap_eq_of_related ((h.corresponds root).feeders .composition) fun n _ n' hn => ?_)
  have hratio : (n'.attributesAs .composition).map aspectRatio? =
      (n.attributesAs .composition).map aspectRatio? :=
    map_eq_of_rel (hn.attributesAs .composition) fun _ _ ha => ha.2.2.2.1
  have hjoin : ∀ o : Option Kind.composition.Attributes,
      o.bind aspectRatio? = (o.map aspectRatio?).join := by
    intro o
    cases o <;> rfl
  rw [hjoin, hjoin, hratio]

theorem compileFrom_eq (hcovered : g.KeepsCovered g') (library : SubjectLibrary)
    (defaultRatio root : String) :
    g'.compileFrom library defaultRatio root = g.compileFrom library defaultRatio root := by
  rw [compileFrom, compileFrom]
  simp only [h.passages_eq hcovered, h.lastAspectRatio?_eq]

theorem target_eq (root : Option String) :
    ((root.bind g'.node?).orElse fun _ => g'.output?).map Node.id =
      ((root.bind g.node?).orElse fun _ => g.output?).map Node.id := by
  have houtput : Option.Rel Node.Emptied g.output? g'.output? :=
    rel_find? (fun n n' hn => by rw [Node.isOutput, Node.isOutput, hn.kind_eq]) h.nodes
  have hnode : ∀ id, Option.Rel Node.Emptied (g.node? id) (g'.node? id) := fun id =>
    rel_find? (fun n n' hn => by rw [hn.id_eq]) h.nodes
  have hfound : Option.Rel Node.Emptied ((root.bind g.node?).orElse fun _ => g.output?)
      ((root.bind g'.node?).orElse fun _ => g'.output?) := by
    cases root with
    | none => exact houtput
    | some id => exact rel_orElse (hnode id) houtput
  exact map_eq_of_rel hfound fun _ _ hn => hn.id_eq

end Emptied

/-- Emptying free texts that say nothing does not change what a graph is compiled to, if no text of
a subject is uncovered. -/
theorem compile_of_emptied {g g' : Graph α} (h : g.Emptied g') (hcovered : g.KeepsCovered g')
    (library : SubjectLibrary) (defaultRatio : String) (root : Option String) :
    g'.compile library defaultRatio root = g.compile library defaultRatio root := by
  have hcompile : ∀ g : Graph α, g.compile library defaultRatio root =
      ((((root.bind g.node?).orElse fun _ => g.output?).map Node.id).map
        (g.compileFrom library defaultRatio)).getD (.ok ⟨defaultSetting, [], defaultRatio⟩) := by
    intro g
    rw [compile]
    cases (root.bind g.node?).orElse fun _ => g.output? <;> rfl
  have hsame : g'.compileFrom library defaultRatio = g.compileFrom library defaultRatio :=
    funext (h.compileFrom_eq hcovered library defaultRatio)
  rw [hcompile, hcompile, h.target_eq, hsame]

/-- A subject with its body; each may have an age. -/
def aged (own body : Option String) : Graph Int where
  nodes := [
    ⟨"out", .output, (none, ()), ⟨0, 0⟩, false, none⟩,
    ⟨"ann", .subjectRoot, (none, none, none, own, none, none, .faceOnly, none, ()), ⟨1, 0⟩, false,
      none⟩,
    ⟨"body", .body, (none, none, body, none, none, none, ()), ⟨2, 0⟩, false, none⟩]
  edges := [⟨"1", "ann", "out"⟩, ⟨"2", "body", "ann"⟩]

theorem emptied_aged (own : Option String) {body : Option String} (h : isSet body = false) :
    (aged own body).Emptied (aged own none) where
  nodes := by
    refine .cons (Node.Emptied.refl _) (.cons (Node.Emptied.refl _) (.cons ?_ .nil))
    refine ⟨(none, none, none, none, none, none, ()), ?_, rfl⟩
    exact ⟨Or.inl rfl, rfl, Or.inr ⟨by decide, h, rfl⟩, Or.inl rfl, Or.inl rfl, rfl, trivial⟩
  edges_eq := rfl

theorem compile_of_emptied_aged :
    let g := aged none (some "None")
    let g' := aged none none
    g.Emptied g' ∧ g.KeepsCovered g' ∧ g'.compile [] "1:1" none = g.compile [] "1:1" none := by
  intro g g'
  have hemptied : g.Emptied g' := emptied_aged none (by decide)
  have hcovered : g.KeepsCovered g' := by
    rintro r hr own hown body body' - - ⟨t, -, -, hset⟩
    simp only [g, aged, List.mem_cons, List.not_mem_nil, or_false] at hr
    rcases hr with rfl | rfl | rfl
    · cases hown
    · cases hown
      cases t <;> cases hset
    · cases hown
  exact ⟨hemptied, hcovered, compile_of_emptied hemptied hcovered [] "1:1" none⟩

set_option maxRecDepth 3000 in
/-- A body that is of no age hides the age of its subject, and a body without an age does not. -/
theorem compile_aged_uncovered :
    let g := aged (some "40 year old") (some "None")
    let g' := aged (some "40 year old") none
    (g.nodes.map Node.id).Nodup ∧ g.Emptied g' ∧
      g.compile [] "1:1" none = .ok ⟨"Setting: Minimalist Studio. SUBJECT:", [], "1:1"⟩ ∧
      g'.compile [] "1:1" none = .ok
        ⟨"Setting: Minimalist Studio. SUBJECT: Subject is a 40 year old person.", [], "1:1"⟩ := by
  intro g g'
  have hemptied : g.Emptied g' := emptied_aged _ (by decide)
  refine ⟨by decide, hemptied, ?_, ?_⟩
  · show g.compileFrom [] "1:1" "out" = _
    rw [compileFrom, sanitize_eq]
    with_unfolding_all decide
  · show g'.compileFrom [] "1:1" "out" = _
    rw [compileFrom, sanitize_eq]
    with_unfolding_all decide

end Graph
end PromptCanvas
