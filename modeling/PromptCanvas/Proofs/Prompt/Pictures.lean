import PromptCanvas.Proofs.Prompt.Counterpart

/-!
# The images of a node

A node brings images into a prompt: a style those of its references, an environment that of its
scene, a subject that of its first reference and those of its profile.  The clauses of the node have
these images, in this order (`imagesOf_clausesOf`), and speak of no others (`speaks_of_mem`).
-/

namespace PromptCanvas
namespace Prompt

variable {α : Type}

/-! ## Rows of clauses -/

@[simp] theorem imagesOf_nil : imagesOf [] = [] := rfl

@[simp] theorem imagesOf_text (s : String) (cs : List Clause) :
    imagesOf (.text s :: cs) = imagesOf cs := rfl

@[simp] theorem imagesOf_mention (m : Mention) (image : ImageRef) (cs : List Clause) :
    imagesOf (.mention m image :: cs) = image :: imagesOf cs := rfl

@[simp] theorem imagesOf_attachment (image : ImageRef) (cs : List Clause) :
    imagesOf (.attachment image :: cs) = image :: imagesOf cs := rfl

@[simp] theorem imagesOf_append (xs ys : List Clause) :
    imagesOf (xs ++ ys) = imagesOf xs ++ imagesOf ys := List.filterMap_append

@[simp] theorem imagesOf_ite (p : Prop) [Decidable p] (xs ys : List Clause) :
    imagesOf (if p then xs else ys) = if p then imagesOf xs else imagesOf ys := apply_ite ..

@[simp] theorem imagesOf_map_text (texts : List String) : imagesOf (texts.map .text) = [] := by
  simp [imagesOf, List.filterMap_map]

@[simp] theorem imagesOf_map_mention (m : Mention) (images : List ImageRef) :
    imagesOf (images.map (.mention m)) = images := by
  simp [imagesOf, List.filterMap_map]

@[simp] theorem imagesOf_map_attachment (images : List ImageRef) :
    imagesOf (images.map .attachment) = images := by
  simp [imagesOf, List.filterMap_map]

theorem mem_imagesOf {cs : List Clause} {m : Mention} {image : ImageRef}
    (h : .mention m image ∈ cs) : image ∈ imagesOf cs :=
  List.mem_filterMap.mpr ⟨_, h, rfl⟩

theorem not_mem_of_imagesOf_eq_nil {cs : List Clause} {m : Mention} {image : ImageRef}
    (h : imagesOf cs = []) : .mention m image ∉ cs := fun hm =>
  List.not_mem_nil (h ▸ mem_imagesOf hm)

/-! ## Rows without images -/

@[simp] theorem imagesOf_labelled (heading : String) (value : Option String) :
    imagesOf (labelled heading value) = [] := by
  unfold labelled
  cases filled? value <;> rfl

@[simp] theorem imagesOf_listed (opening separator : String) (values : List String) :
    imagesOf (listed opening separator values) = [] := by
  simp [listed]

@[simp] theorem imagesOf_personClauses (body : Option Kind.body.Attributes)
    (own : Kind.subjectRoot.Attributes) : imagesOf (personClauses body own) = [] := by
  rcases body with _ | ⟨_, _, _, _, _, skin, _⟩
  · simp [personClauses]
  · cases skin <;> simp [personClauses]

@[simp] theorem imagesOf_faceClauses (a : Option Kind.face.Attributes) :
    imagesOf (faceClauses a) = [] := by
  cases a <;> simp [faceClauses]

@[simp] theorem imagesOf_hairClauses (a : Option Kind.hair.Attributes) :
    imagesOf (hairClauses a) = [] := by
  cases a <;> rfl

@[simp] theorem imagesOf_attireClauses (a : Option Kind.attire.Attributes) (props : Option String) :
    imagesOf (attireClauses a props) = [] := by
  cases a <;> simp [attireClauses]

@[simp] theorem imagesOf_poseClauses (a : Option Kind.pose.Attributes) :
    imagesOf (poseClauses a) = [] := by
  cases a <;> simp [poseClauses]

theorem imagesOf_subjectClauses (a : Kind.subject.Attributes) :
    imagesOf (subjectClauses a) = [] := by
  obtain ⟨_, gender, _⟩ := a
  cases gender <;> simp [subjectClauses]

@[simp] theorem imagesOf_locationClauses (a : Option Kind.location.Attributes) :
    imagesOf (locationClauses a) = [] := by
  rcases a with _ | ⟨_, name, _, _, setting, _⟩
  · rfl
  · cases hname : filled? name <;> cases setting <;> simp [locationClauses, hname]

@[simp] theorem imagesOf_atmosphereClauses (a : Option Kind.atmosphere.Attributes) :
    imagesOf (atmosphereClauses a) = [] := by
  cases a <;> simp [atmosphereClauses]

theorem imagesOf_cameraClauses (a : Kind.camera.Attributes) : imagesOf (cameraClauses a) = [] := by
  simp [cameraClauses]

theorem imagesOf_lightingClauses (a : Kind.lighting.Attributes) :
    imagesOf (lightingClauses a) = [] := by
  simp [lightingClauses]

theorem imagesOf_compositionClauses (a : Kind.composition.Attributes) :
    imagesOf (compositionClauses a) = [] := by
  simp [compositionClauses]

theorem imagesOf_flatMap_eq_nil {β : Type} {row : List β} {clauses : β → List Clause}
    (h : ∀ b, imagesOf (clauses b) = []) : imagesOf (row.flatMap clauses) = [] := by
  induction row with
  | nil => rfl
  | cons b row ih => rw [List.flatMap_cons, imagesOf_append, h, ih, List.nil_append]

section Graphs

variable (g : Graph α) (id : String)

theorem imagesOf_cameraRootClauses (a : Kind.cameraRoot.Attributes) :
    imagesOf (cameraRootClauses g id a) = [] := by
  obtain ⟨_, model, _⟩ := a
  have hlens : ∀ l, imagesOf (lensClauses l) = [] := by
    intro l
    cases l <;> simp [lensClauses]
  have hfilm : ∀ l, imagesOf (filmClauses l) = [] := by
    intro l
    cases l <;> simp [filmClauses]
  have hexposure : ∀ l, imagesOf (exposureClauses l) = [] := by
    intro l
    cases l <;> simp [exposureClauses]
  cases hmodel : filled? model <;> simp [cameraRootClauses, hmodel, hlens, hfilm, hexposure]

theorem imagesOf_lightSourceClauses (a : Kind.lightSource.Attributes) :
    imagesOf (lightSourceClauses g id a) = [] := by
  obtain ⟨_, type, _, _, power, _⟩ := a
  cases htype : filled? type <;> cases power <;> simp [lightSourceClauses, htype]

theorem imagesOf_ambientClauses (a : Kind.globalIllumination.Attributes) :
    imagesOf (ambientClauses a) = [] := by
  obtain ⟨_, description, intensity, _⟩ := a
  cases hdescription : filled? description <;> cases intensity <;>
    simp [ambientClauses, hdescription]

theorem imagesOf_lightingRootClauses (a : Kind.lightingRoot.Attributes) :
    imagesOf (lightingRootClauses g id a) = [] := by
  have hsources : imagesOf (sourceClauses g id) = [] := imagesOf_flatMap_eq_nil fun n => by
    cases n.attributesAs .lightSource with
    | none => rfl
    | some a => exact imagesOf_lightSourceClauses g n.id a
  simp [lightingRootClauses, hsources, imagesOf_flatMap_eq_nil imagesOf_ambientClauses]

end Graphs

/-! ## The images of a node -/

/-- The image that a reference holds. -/
def referenceImage? (n : Node α) : Option ImageRef :=
  (n.attributesAs .reference).bind fun (_, image, ()) => image

/-- The images of the references that feed a style. -/
def styleImages (g : Graph α) (id : String) : List ImageRef :=
  (g.inputsOf id .reference).filterMap referenceImage?

/-- The image of an environment, of either kind. -/
def sceneImage? : Node α → Option ImageRef
  | ⟨_, .environment, (_, _, _, _, _, _, _, _, image, ()), _, _, _⟩ => image
  | ⟨_, .environmentRoot, (_, _, image, ()), _, _, _⟩ => image
  | _ => none

/-- The image of the reference that feeds a subject first. -/
def identityImage? (g : Graph α) (id : String) : Option ImageRef :=
  (g.firstInput? id .reference).bind referenceImage?

/-- The profile that a subject refers to, if the library has it. -/
def profile? (library : SubjectLibrary) (n : Node α) : Option SubjectProfile :=
  (n.attributesAs .subjectRoot).bind fun (_, selected, _) => selected.bind fun id =>
    if id.isEmpty then none else Keyed.find? id library

/-- The images of a subject: its own, then those of its profile. -/
def subjectImages (g : Graph α) (library : SubjectLibrary) (n : Node α) : List ImageRef :=
  (identityImage? g n.id).toList ++ ((profile? library n).map (·.images)).getD []

/-- The images that a node brings into a prompt if it is of a kind. -/
def picturesAs (g : Graph α) (library : SubjectLibrary) (n : Node α) : Kind → List ImageRef
  | .style => styleImages g n.id
  | .environment | .environmentRoot => (sceneImage? n).toList
  | .subjectRoot => subjectImages g library n
  | _ => []

/-- The images that a node brings into a prompt. -/
def pictures (g : Graph α) (library : SubjectLibrary) (n : Node α) : List ImageRef :=
  picturesAs g library n n.kind

theorem firstAttributes?_eq (g : Graph α) (id : String) (k : Kind) :
    firstAttributes? g id k = (g.firstInput? id k).bind (·.attributesAs k) := by
  have hkind : ∀ n ∈ g.inputsOf id k, (n.attributesAs k).isSome := by
    intro n hn
    obtain ⟨-, hn⟩ := List.mem_filter.mp hn
    obtain rfl := eq_of_beq hn
    rw [attributesAs_self]
    rfl
  rw [firstAttributes?, inputAttributes_eq, Graph.firstInput?]
  cases hinputs : g.inputsOf id k with
  | nil => rfl
  | cons n ns =>
    obtain ⟨a, ha⟩ := Option.isSome_iff_exists.mp (hkind n (hinputs ▸ List.mem_cons_self))
    simp [ha]

theorem styleClauses_eq (g : Graph α) (id : String) (a : Kind.style.Attributes) :
    styleClauses g id a =
      labelled "Photographic Style" a.2.1 ++ labelled "Color Grade" a.2.2.1
        ++ (styleImages g id).map (.mention .style) := by
  show _ ++ (inputAttributes g id .reference).filterMap _ = _
  rw [inputAttributes_eq, List.filterMap_filterMap, styleImages, List.map_filterMap]
  refine congrArg _ (List.filterMap_congr fun n _ => ?_)
  rw [referenceImage?]
  cases n.attributesAs .reference <;> rfl

theorem identityClauses_eq (g : Graph α) (id : String) (mode : Consistency) :
    identityClauses g id mode = (identityImage? g id).toList.map (.mention (.identity mode)) := by
  rw [identityClauses, firstAttributes?_eq, identityImage?]
  cases g.firstInput? id .reference with
  | none => rfl
  | some n =>
    show _ = (referenceImage? n).toList.map _
    rw [referenceImage?, Option.bind_some]
    rcases n.attributesAs .reference with _ | ⟨_, _ | image, _⟩ <;> rfl

theorem sceneImageClauses_eq (image : Option ImageRef) :
    sceneImageClauses image = image.toList.map (.mention .scene) := by
  cases image <;> rfl

/-- The images of the clauses of a node are the node's. -/
theorem imagesOf_clausesOf (g : Graph α) (library : SubjectLibrary) (n : Node α) :
    imagesOf (clausesOf g library n.id n.kind n.attributes) = pictures g library n := by
  obtain ⟨id, kind, a, position, collapsed, parent⟩ := n
  cases kind with
  | subjectRoot =>
    obtain ⟨label, selected, gender, age, ethnicity, physique, mode, props, ⟨⟩⟩ := a
    have hprofile : imagesOf (profileClauses library selected) =
        ((profile? library ⟨id, .subjectRoot,
          (label, selected, gender, age, ethnicity, physique, mode, props, ()), position, collapsed,
          parent⟩).map (·.images)).getD [] := by
      cases selected with
      | none => rfl
      | some selected =>
        show imagesOf (if _ then _ else _) = Option.getD (Option.map _ (if _ then _ else _)) _
        split
        · rfl
        · cases Keyed.find? selected library <;> simp
    simp [clausesOf, subjectRootClauses, identityClauses_eq, hprofile, pictures, picturesAs,
      subjectImages]
  | style => simp [clausesOf, styleClauses_eq, pictures, picturesAs]
  | environment =>
    obtain ⟨_, type, _, _, _, _, _, _, image, ⟨⟩⟩ := a
    cases type <;>
      simp [clausesOf, environmentClauses, sceneImageClauses_eq, pictures, picturesAs, sceneImage?]
  | environmentRoot =>
    obtain ⟨_, _, image, ⟨⟩⟩ := a
    simp [clausesOf, environmentRootClauses, sceneImageClauses_eq, pictures, picturesAs,
      sceneImage?]
  | subject => exact imagesOf_subjectClauses a
  | cameraRoot => exact imagesOf_cameraRootClauses g id a
  | camera => exact imagesOf_cameraClauses a
  | lightingRoot => exact imagesOf_lightingRootClauses g id a
  | lightSource => exact imagesOf_lightSourceClauses g id a
  | lighting => exact imagesOf_lightingClauses a
  | composition => exact imagesOf_compositionClauses a
  | _ => rfl

/-- A clause speaks of an image of the node for which it is written. -/
def Speaks (g : Graph α) (n : Node α) (image : ImageRef) : Mention → Prop
  | .style => n.kind = .style ∧ image ∈ styleImages g n.id
  | .scene => (n.kind = .environment ∨ n.kind = .environmentRoot) ∧ sceneImage? n = some image
  | .identity _ => n.kind = .subjectRoot ∧ identityImage? g n.id = some image

theorem mention_mem_map {m m' : Mention} {image : ImageRef} {images : List ImageRef} :
    .mention m image ∈ images.map (Clause.mention m') ↔ m' = m ∧ image ∈ images := by
  rw [List.mem_map]
  constructor
  · rintro ⟨_, h, he⟩
    cases he
    exact ⟨rfl, h⟩
  · rintro ⟨rfl, h⟩
    exact ⟨image, h, rfl⟩

theorem mem_sceneImageClauses {scene : Option ImageRef} {m : Mention} {image : ImageRef} :
    .mention m image ∈ sceneImageClauses scene ↔ .scene = m ∧ scene = some image := by
  rw [sceneImageClauses_eq, mention_mem_map, Option.mem_toList]

theorem mention_not_mem_profileClauses {library : SubjectLibrary} {selected : Option String}
    {m : Mention} {image : ImageRef} : .mention m image ∉ profileClauses library selected := by
  unfold profileClauses
  split <;> simp
  split <;> simp

/-- A node speaks only of its own images. -/
theorem speaks_of_mem {g : Graph α} {library : SubjectLibrary} {n : Node α} {m : Mention}
    {image : ImageRef} (h : .mention m image ∈ clausesOf g library n.id n.kind n.attributes) :
    Speaks g n image m := by
  have hpictures : pictures g library n ≠ [] := by
    rw [← imagesOf_clausesOf]
    exact List.ne_nil_of_mem (mem_imagesOf h)
  obtain ⟨id, kind, a, position, collapsed, parent⟩ := n
  cases kind with
  | subjectRoot =>
    obtain ⟨label, selected, gender, age, ethnicity, physique, mode, props, ⟨⟩⟩ := a
    have hidentity : .mention m image ∈ identityClauses g id mode := by
      simpa [clausesOf, subjectRootClauses, not_mem_of_imagesOf_eq_nil,
        mention_not_mem_profileClauses] using h
    rw [identityClauses_eq] at hidentity
    obtain ⟨rfl, himage⟩ := mention_mem_map.mp hidentity
    exact ⟨rfl, Option.mem_toList.mp himage⟩
  | style =>
    have hstyle : .mention m image ∈ (styleImages g id).map (Clause.mention .style) := by
      simpa [clausesOf, styleClauses_eq, not_mem_of_imagesOf_eq_nil] using h
    obtain ⟨rfl, himage⟩ := mention_mem_map.mp hstyle
    exact ⟨rfl, himage⟩
  | environment =>
    obtain ⟨_, type, _, _, _, _, _, _, scene, ⟨⟩⟩ := a
    have hscene : .mention m image ∈ sceneImageClauses scene := by
      cases type <;> simpa [clausesOf, environmentClauses, not_mem_of_imagesOf_eq_nil] using h
    obtain ⟨rfl, himage⟩ := mem_sceneImageClauses.mp hscene
    exact ⟨.inl rfl, himage⟩
  | environmentRoot =>
    obtain ⟨_, _, scene, ⟨⟩⟩ := a
    have hscene : .mention m image ∈ sceneImageClauses scene := by
      simpa [clausesOf, environmentRootClauses, not_mem_of_imagesOf_eq_nil] using h
    obtain ⟨rfl, himage⟩ := mem_sceneImageClauses.mp hscene
    exact ⟨.inr rfl, himage⟩
  -- Whoever brings no image speaks of none.
  | _ => exact absurd rfl hpictures

end Prompt
end PromptCanvas
