import PromptCanvas.Proofs.Prompt.Clean
import PromptCanvas.Proofs.Prompt.Pictures

/-!
# Which image a number stands for

The images of a prompt are those of its styles, its environments and its subjects, in this order.
A clause that speaks of an image by a number speaks of the image that has this place in the row.

The number of a clause depends on all clauses before it, in its own passage and in the passages
before that (`textsFrom_append`, `passageTexts_append`), and so does the place of an image in the
row.  The node that a passage is written for then says which image it is.
-/

namespace PromptCanvas
namespace Prompt

variable {α : Type}

/-! ## Counting -/

/-- Clauses are numbered from where the clauses before them end. -/
theorem textsFrom_append (before : Nat) (xs ys : List Clause) :
    textsFrom before (xs ++ ys) =
      textsFrom before xs ++ textsFrom (before + (imagesOf xs).length) ys := by
  induction xs generalizing before with
  | nil => rfl
  | cons c xs ih =>
    cases c with
    | text s => exact congrArg (s :: ·) (ih before)
    | mention m image =>
      rw [List.cons_append, textsFrom, textsFrom, ih, imagesOf_mention, List.length_cons,
        Nat.add_assoc, Nat.add_comm 1, List.cons_append]
    | attachment image =>
      rw [List.cons_append, textsFrom, textsFrom, ih, imagesOf_attachment, List.length_cons,
        Nat.add_assoc, Nat.add_comm 1]

/-- The text of a mention has the number of the mention's image. -/
theorem textsFrom_mention (before : Nat) (xs ys : List Clause) (m : Mention) (image : ImageRef) :
    textsFrom before (xs ++ .mention m image :: ys) =
      textsFrom before xs ++ m.text (before + (imagesOf xs).length + 1) ::
        textsFrom (before + (imagesOf xs).length + 1) ys := by
  rw [textsFrom_append]
  rfl

/-- Passages are numbered from where the passages before them end. -/
theorem passageTexts_append (before : Nat) (ps qs : List Passage) :
    passageTexts before (ps ++ qs) =
      passageTexts before ps ++ passageTexts (before + (ps.flatMap Passage.images).length) qs := by
  induction ps generalizing before with
  | nil => rfl
  | cons p ps ih =>
    rw [List.cons_append, passageTexts, passageTexts, ih, List.flatMap_cons, List.length_append,
      Nat.add_assoc, List.cons_append]

/-! ## The nodes of the passages -/

/-- The nodes of some kinds, kind by kind. -/
def ofKinds (found : List (Node α)) (kinds : List Kind) : List (Node α) :=
  kinds.flatMap fun k => found.filter (·.kind == k)

/-- The nodes that the passages are written for, passage by passage.  The setting of a prompt that
has no environment is written for none. -/
def speakers (found : List (Node α)) : List (Option (Node α)) :=
  let stage (kinds : List Kind) := (ofKinds found kinds).map some
  let environment := stage [.environment, .environmentRoot]
  stage [.composition, .style]
    ++ (if environment.isEmpty then [none] else environment)
    ++ stage [.subjectRoot, .subject]
    ++ stage [.cameraRoot, .camera]
    ++ stage [.lightingRoot, .lightSource, .lighting]

/-- What a passage says that is written for a node, or for none. -/
def spoken (g : Graph α) (library : SubjectLibrary) : Option (Node α) → List Clause
  | none => [.text defaultSetting]
  | some n => clausesOf g library n.id n.kind n.attributes

section Passages

variable (g : Graph α) (library : SubjectLibrary) (found : List (Node α))

theorem map_clauses_passagesOf (kinds : List Kind) :
    (passagesOf g library found kinds).map Passage.clauses =
      ((ofKinds found kinds).map some).map (spoken g library) := by
  simp [passagesOf, ofKinds, List.map_flatMap, Function.comp_def, spoken]

theorem map_clauses_underHeadings (subjects : List Passage) :
    (underHeadings subjects).map Passage.clauses = subjects.map Passage.clauses := by
  rw [underHeadings, List.map_map]
  show subjects.zipIdx.map (Passage.clauses ∘ Prod.fst) = _
  rw [← List.map_map, List.zipIdx_map_fst]

/-- Each passage has the clauses of the node that it is written for. -/
theorem map_clauses_passages :
    (passages g library found).map Passage.clauses = (speakers found).map (spoken g library) := by
  have hempty : (passagesOf g library found [.environment, .environmentRoot]).isEmpty =
      ((ofKinds found [.environment, .environmentRoot]).map some).isEmpty := by
    have h := congrArg List.isEmpty
      (map_clauses_passagesOf g library found [.environment, .environmentRoot])
    simpa only [List.isEmpty_map] using h
  simp only [passages, speakers, hempty, List.map_append, map_clauses_passagesOf,
    map_clauses_underHeadings, apply_ite (List.map Passage.clauses),
    apply_ite (List.map (spoken g library))]
  rfl

theorem imagesOf_spoken (v : Option (Node α)) :
    imagesOf (spoken g library v) = v.elim [] (pictures g library) := by
  cases v with
  | none => rfl
  | some n => exact imagesOf_clausesOf g library n

theorem flatMap_images_eq_speakers :
    (passages g library found).flatMap Passage.images =
      (speakers found).flatMap fun v => v.elim [] (pictures g library) := by
  have himages (ps : List Passage) : ps.flatMap Passage.images =
      (ps.map Passage.clauses).flatMap imagesOf := by
    rw [List.flatMap_map]
    rfl
  rw [himages, map_clauses_passages, List.flatMap_map]
  simp only [imagesOf_spoken]

variable {found}

/-- The nodes of a stage bring their images kind by kind. -/
theorem flatMap_pictures_ofKinds (kinds : List Kind) :
    ((ofKinds found kinds).map some).flatMap (fun v => v.elim [] (pictures g library)) =
      kinds.flatMap fun k => (found.filter (·.kind == k)).flatMap (picturesAs g library · k) := by
  rw [List.flatMap_map, ofKinds, List.flatMap_assoc]
  refine List.flatMap_congr fun k _ => List.flatMap_congr fun n hn => ?_
  rw [Option.elim_some, pictures, eq_of_beq (List.mem_filter.mp hn).2]

/-- The images of all passages: those of the styles, of the environments and of the subjects. -/
theorem flatMap_images_eq_stages :
    (passages g library found).flatMap Passage.images =
      (found.filter (·.kind == .style)).flatMap (styleImages g ·.id)
        ++ (found.filter (·.kind == .environment)).filterMap sceneImage?
        ++ (found.filter (·.kind == .environmentRoot)).filterMap sceneImage?
        ++ (found.filter (·.kind == .subjectRoot)).flatMap (subjectImages g library) := by
  have henvironment (row : List (Option (Node α))) :
      (if row.isEmpty then [none] else row).flatMap (fun v => v.elim [] (pictures g library)) =
        row.flatMap fun v => v.elim [] (pictures g library) := by
    cases row <;> rfl
  have hnone (ns : List (Node α)) : ns.flatMap (fun _ => ([] : List ImageRef)) = [] :=
    List.flatMap_eq_nil_iff.mpr fun _ _ => rfl
  simp only [flatMap_images_eq_speakers, speakers, List.flatMap_append, henvironment,
    flatMap_pictures_ofKinds, List.flatMap_cons, List.flatMap_nil, picturesAs, hnone,
    List.filterMap_eq_flatMap_toList, List.nil_append, List.append_nil, List.append_assoc]

end Passages

/-- The number stands for an image that a node brings along and that is spoken of this way. -/
structure PointsTo (g : Graph α) (library : SubjectLibrary) (images : List ImageRef) (n : Node α)
    (m : Mention) (image : ImageRef) (number : Nat) : Prop where
  speaks : Speaks g n image m
  pos : 1 ≤ number
  entry : images[number - 1]? = some image
  /-- The place in the row is one of the node's own. -/
  own : ∃ before after, images = before ++ pictures g library n ++ after ∧
    before.length < number ∧ number ≤ before.length + (pictures g library n).length

/-- A mention in a passage is of an image of the node that the passage is written for. -/
theorem exists_pointsTo {g : Graph α} {library : SubjectLibrary} {found : List (Node α)}
    {ps qs : List Passage} {p : Passage} {xs ys : List Clause} {m : Mention} {image : ImageRef}
    (hps : passages g library found = ps ++ p :: qs)
    (hp : p.clauses = xs ++ .mention m image :: ys) :
    ∃ n, (speakers found)[ps.length]? = some (some n) ∧
      PointsTo g library ((ps ++ p :: qs).flatMap Passage.images) n m image
        ((ps.flatMap Passage.images).length + (imagesOf xs).length + 1) := by
  have hspoken : ((speakers found).map (spoken g library))[ps.length]? = some p.clauses := by
    rw [← map_clauses_passages, hps]
    simp
  rw [List.getElem?_map, Option.map_eq_some_iff] at hspoken
  obtain ⟨v, hv, hclauses⟩ := hspoken
  have hmem : .mention m image ∈ spoken g library v := by
    rw [hclauses, hp]
    exact List.mem_append_right xs List.mem_cons_self
  cases v with
  | none =>
    -- The setting that stands for no environment speaks of no image.
    cases List.mem_singleton.mp hmem
  | some n =>
    have hpictures : pictures g library n = imagesOf xs ++ image :: imagesOf ys := by
      rw [← imagesOf_clausesOf, ← imagesOf_mention m, ← imagesOf_append, ← hp, ← hclauses]
      rfl
    have himages : (ps ++ p :: qs).flatMap Passage.images =
        ps.flatMap Passage.images ++ pictures g library n ++ qs.flatMap Passage.images := by
      rw [List.flatMap_append, List.flatMap_cons, Passage.images, ← hclauses,
        ← imagesOf_clausesOf, List.append_assoc]
      rfl
    refine ⟨n, hv, speaks_of_mem hmem, by omega, ?_, _, _, himages, by omega, ?_⟩
    · rw [himages, hpictures]
      simp
    · rw [hpictures, List.length_append, List.length_cons]
      omega

end Prompt

namespace Graph

open Prompt

variable {α : Type}

theorem feedersOf_singleton (g : Graph α) (root : String) (k : Kind) :
    g.feedersOf root [k] = (g.feeders root).filter (·.kind == k) := by
  rw [feedersOf_eq_filter]
  refine List.filter_congr fun n _ => ?_
  rw [List.contains_cons, List.contains_nil, Bool.or_false]

/-- The images of a prompt: those of the references of each style, then those of the environments,
then for each subject its own and those of its profile. -/
def promptImages (g : Graph α) (library : SubjectLibrary) (root : String) : List ImageRef :=
  (g.feedersOf root [.style]).flatMap (styleImages g ·.id)
    ++ (g.feedersOf root [.environment]).filterMap sceneImage?
    ++ (g.feedersOf root [.environmentRoot]).filterMap sceneImage?
    ++ (g.feedersOf root [.subjectRoot]).flatMap (subjectImages g library)

theorem flatMap_images_eq (g : Graph α) (library : SubjectLibrary) (root : String) :
    (passages g library (g.feeders root)).flatMap Passage.images = g.promptImages library root := by
  simp only [promptImages, feedersOf_singleton, flatMap_images_eq_stages]

/-- The images come stage by stage, whatever the cleaned text is.  Each clause that speaks of an
image by a number is written for a node, and the image with the number is one that this node brings
along and is spoken of this way. -/
theorem images_and_numbers (g : Graph α) (library : SubjectLibrary) (defaultRatio root : String) :
    g.compileFrom library defaultRatio root =
      (sanitize (joinTexts (passageTexts 0 (passages g library (g.feeders root))))).map
        (fun prompt => ⟨prompt, g.promptImages library root,
          ((lastAspectRatio? (g.feeders root)).map AspectRatio.name).getD defaultRatio⟩) ∧
    ∀ ps p qs xs m image ys, passages g library (g.feeders root) = ps ++ p :: qs →
      p.clauses = xs ++ .mention m image :: ys →
      let start := (ps.flatMap Passage.images).length
      let number := start + (imagesOf xs).length + 1
      ∃ n, (speakers (g.feeders root))[ps.length]? = some (some n) ∧
        passageTexts 0 (passages g library (g.feeders root)) =
          passageTexts 0 ps ++ p.text start :: passageTexts (start + p.images.length) qs ∧
        textsFrom start p.clauses =
          textsFrom start xs ++ m.text number :: textsFrom number ys ∧
        PointsTo g library (g.promptImages library root) n m image number := by
  constructor
  · rw [compileFrom, ← flatMap_images_eq]
    cases sanitize (joinTexts (passageTexts 0 (passages g library (g.feeders root)))) <;> rfl
  · intro ps p qs xs m image ys hps hp start number
    obtain ⟨n, hspeaker, hpoints⟩ := exists_pointsTo hps hp
    rw [← flatMap_images_eq, hps]
    refine ⟨n, hspeaker, ?_, ?_, hpoints⟩
    · rw [passageTexts_append, Nat.zero_add]
      rfl
    · rw [hp]
      exact textsFrom_mention ..

def galleryImage (data : String) : ImageRef := ⟨data, "image/png"⟩

/-- Two styles, two environments and two subjects, the first with a profile of two images. -/
def gallery : Graph Int where
  nodes := [
    ⟨"out", .output, (none, ()), ⟨0, 0⟩, false, none⟩,
    ⟨"ann", .subjectRoot, (none, some "cast", none, none, none, none, .faceOnly, none, ()),
      ⟨0, 0⟩, false, none⟩,
    ⟨"ben", .subjectRoot, (none, some "gone", none, none, none, none, .faceOnly, none, ()),
      ⟨0, 0⟩, false, none⟩,
    ⟨"hall", .environmentRoot, (none, none, some (galleryImage "Hall"), ()), ⟨0, 0⟩, false, none⟩,
    ⟨"yard", .environment, (none, .general, none, none, none, none, none, none,
      some (galleryImage "Yard"), ()), ⟨0, 0⟩, false, none⟩,
    ⟨"soft", .style, (none, none, none, ()), ⟨0, 0⟩, false, none⟩,
    ⟨"hard", .style, (none, none, none, ()), ⟨0, 0⟩, false, none⟩,
    ⟨"face", .reference, (none, some (galleryImage "Face"), ()), ⟨0, 0⟩, false, none⟩,
    ⟨"mood", .reference, (none, some (galleryImage "Mood"), ()), ⟨0, 0⟩, false, none⟩,
    ⟨"void", .reference, (none, none, ()), ⟨0, 0⟩, false, none⟩]
  edges := [
    ⟨"1", "ann", "out"⟩, ⟨"2", "hall", "out"⟩, ⟨"3", "soft", "out"⟩, ⟨"4", "hard", "soft"⟩,
    ⟨"5", "ben", "hard"⟩, ⟨"6", "yard", "hard"⟩, ⟨"7", "void", "hard"⟩, ⟨"8", "mood", "hard"⟩,
    ⟨"9", "face", "soft"⟩, ⟨"10", "mood", "ann"⟩, ⟨"11", "face", "ben"⟩, ⟨"12", "mood", "ben"⟩]

def galleryLibrary : SubjectLibrary := [
  ("cast", ⟨"cast", "Ann", none, none, none, .realPerson,
    [galleryImage "Left", galleryImage "Side"], []⟩)]

def galleryTexts : List String := [
  "Match the visual style of reference Image 1.", "Match the visual style of reference Image 2.",
  "The setting matches reference Image 3.", "The setting matches reference Image 4.",
  "SUBJECT 1: The subject's identity is derived from Image 5. Reference Identity: Ann.",
  "SUBJECT 2: The subject's identity is derived from Image 8."]

def galleryPrompt : CompiledPrompt where
  prompt := " ".intercalate galleryTexts
  images := ["Face", "Mood", "Yard", "Hall", "Mood", "Left", "Side", "Face"].map galleryImage
  aspectRatio := "1:1"

theorem images_and_numbers_gallery :
    gallery.compileFrom galleryLibrary "1:1" "out" = .ok galleryPrompt ∧
    galleryPrompt.images = gallery.promptImages galleryLibrary "out" ∧
    passages gallery galleryLibrary (gallery.feeders "out") =
      (passages gallery galleryLibrary (gallery.feeders "out")).take 5 ++
        [⟨some "SUBJECT 2:", [.mention (.identity .faceOnly) (galleryImage "Face")]⟩] ∧
    ∃ n, (speakers (gallery.feeders "out"))[5]? = some (some n) ∧
      PointsTo gallery galleryLibrary galleryPrompt.images n (.identity .faceOnly)
        (galleryImage "Face") 8 := by
  have htexts : passageTexts 0 (passages gallery galleryLibrary (gallery.feeders "out")) =
      galleryTexts := by decide +kernel
  have hjoined : joinTexts galleryTexts = galleryPrompt.prompt := by
    have hfull : galleryTexts.filter (fun s => !s.isEmpty) = galleryTexts := by decide +kernel
    rw [joinTexts, hfull]
    rfl
  -- Text by text, since the letters of a long text are slow to read.
  have hpass : pass galleryPrompt.prompt.toList = .ok galleryPrompt.prompt.toList := by
    rw [galleryPrompt, String.toList_intercalate]
    decide +kernel
  have hclean : sanitize galleryPrompt.prompt = .ok galleryPrompt.prompt := by
    rw [sanitize_eq, hpass]
    exact congrArg Except.ok String.ofList_toList
  have himages : gallery.promptImages galleryLibrary "out" = galleryPrompt.images := by
    decide +kernel
  have hratio : lastAspectRatio? (gallery.feeders "out") = none := by decide +kernel
  have hps : passages gallery galleryLibrary (gallery.feeders "out") =
      (passages gallery galleryLibrary (gallery.feeders "out")).take 5 ++
        [⟨some "SUBJECT 2:", [.mention (.identity .faceOnly) (galleryImage "Face")]⟩] := by
    decide +kernel
  have hlength : ((passages gallery galleryLibrary (gallery.feeders "out")).take 5).length = 5 := by
    decide +kernel
  have hstart : (((passages gallery galleryLibrary (gallery.feeders "out")).take 5).flatMap
      Passage.images).length = 7 := by decide +kernel
  obtain ⟨hcompile, hnumbers⟩ := images_and_numbers gallery galleryLibrary "1:1" "out"
  rw [htexts, hjoined, hclean, himages, hratio] at hcompile
  obtain ⟨n, hspeaker, -, -, hpoints⟩ := hnumbers _ _ _ [] _ _ [] hps rfl
  rw [himages, hstart] at hpoints
  exact ⟨hcompile, himages.symm, hps, n, hlength ▸ hspeaker, hpoints⟩

end Graph
end PromptCanvas
