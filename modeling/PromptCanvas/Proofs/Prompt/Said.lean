import PromptCanvas.Proofs.Prompt.Counterpart

/-!
# What the texts of a record say

A text that is blank, or that is the word for no choice, says nothing.  `said` leaves such texts out
of a record, and the clauses of the record stay the same, because each clause asks for what its text
says before it is written.  The reference to a profile is no such text; it is looked up as it is.
-/

namespace PromptCanvas
namespace Prompt

/-! ## Texts -/

theorem filled?_eq_none {v : Option String} (h : isSet v = false) : filled? v = none := by
  rw [filled?, h]
  rfl

theorem filled?_eq_self {v : Option String} (h : isSet v = true) : filled? v = v := if_pos h

@[simp]
theorem isSet_filled? (v : Option String) : isSet (filled? v) = isSet v := by
  cases h : isSet v with
  | false => rw [filled?_eq_none h]; rfl
  | true => rw [filled?_eq_self h, h]

@[simp]
theorem filled?_filled? (v : Option String) : filled? (filled? v) = filled? v := by
  cases h : isSet v with
  | false => rw [filled?_eq_none h]; rfl
  | true => rw [filled?_eq_self h, filled?_eq_self h]

@[simp]
theorem labelled_filled? (heading : String) (v : Option String) :
    labelled heading (filled? v) = labelled heading v := by
  rw [labelled, labelled, filled?_filled?]

end Prompt

open Prompt

/-! ## Records -/

/-- A value without a text that says nothing. -/
def Field.said : (f : Field) → f.type.Value → f.type.Value
  | ⟨name, .text, _⟩, v => if name = "selected_subject_id" then v else filled? v
  | _, v => v

/-- The values without the texts that say nothing. -/
def Attributes.said : (fs : List Field) → Attributes fs → Attributes fs
  | [], () => ()
  | f :: fs, (v, rest) => (f.said v, said fs rest)

/-- A record without the texts that say nothing. -/
def Kind.said (k : Kind) (a : k.Attributes) : k.Attributes := Attributes.said k.fields a

namespace Prompt

variable {α : Type}

/-! ## What feeds a node -/

theorem lensClauses_said (o : Option Kind.lens.Attributes) :
    lensClauses (o.map Kind.lens.said) = lensClauses o := by
  rcases o with _ | ⟨label, model, aperture, character, ⟨⟩⟩
  · rfl
  · show lensClauses
      (some (filled? label, filled? model, filled? aperture, filled? character, ())) = _
    simp only [lensClauses, labelled_filled?]

theorem filmClauses_said (o : Option Kind.film.Attributes) :
    filmClauses (o.map Kind.film.said) = filmClauses o := by
  rcases o with _ | ⟨label, stock, grain, ⟨⟩⟩
  · rfl
  · show filmClauses (some (filled? label, filled? stock, filled? grain, ())) = _
    simp only [filmClauses, labelled_filled?]

theorem exposureClauses_said (o : Option Kind.cameraSettings.Attributes) :
    exposureClauses (o.map Kind.cameraSettings.said) = exposureClauses o := by
  rcases o with _ | ⟨label, shutter, iso, sensor, ⟨⟩⟩
  · rfl
  · show exposureClauses
      (some (filled? label, filled? shutter, filled? iso, filled? sensor, ())) = _
    simp only [exposureClauses, labelled_filled?]

theorem locationClauses_said (o : Option Kind.location.Attributes) :
    locationClauses (o.map Kind.location.said) = locationClauses o := by
  rcases o with _ | ⟨label, name, latitude, longitude, setting, date, time, ⟨⟩⟩
  · rfl
  · show locationClauses
      (some (filled? label, filled? name, latitude, longitude, setting, filled? date, filled? time,
        ())) = _
    simp only [locationClauses, filled?_filled?, labelled_filled?]

theorem atmosphereClauses_said (o : Option Kind.atmosphere.Attributes) :
    atmosphereClauses (o.map Kind.atmosphere.said) = atmosphereClauses o := by
  rcases o with _ | ⟨label, weather, season, haze, ⟨⟩⟩
  · rfl
  · show atmosphereClauses
      (some (filled? label, filled? weather, filled? season, filled? haze, ())) = _
    simp only [atmosphereClauses, labelled_filled?]

theorem faceClauses_said (o : Option Kind.face.Attributes) :
    faceClauses (o.map Kind.face.said) = faceClauses o := by
  rcases o with _ | ⟨label, eyeColor, makeup, description, ⟨⟩⟩
  · rfl
  · show faceClauses
      (some (filled? label, filled? eyeColor, filled? makeup, filled? description, ())) = _
    simp only [faceClauses, filled?_filled?]

/-- The colour that stands for another one says something. -/
theorem filled?_beq_customHairColor (v : Option String) :
    (filled? v == some customHairColor) = (v == some customHairColor) := by
  cases h : isSet v with
  | true => rw [filled?_eq_self h]
  | false =>
    have hne : v ≠ some customHairColor := by
      rintro rfl
      exact absurd h (by decide)
    rw [filled?_eq_none h, beq_eq_false_iff_ne.mpr hne]
    rfl

theorem HairLook.text_filled? (length style color customColor physics : Option String) :
    (HairLook.mk (filled? length) (filled? style) (filled? color) (filled? customColor)
      (filled? physics)).text = (HairLook.mk length style color customColor physics).text := by
  simp only [HairLook.text, filled?_beq_customHairColor]
  cases color == some customHairColor <;>
    simp only [Bool.false_eq_true, if_true, if_false, List.filterMap_cons, filled?_filled?]

theorem hairClauses_said (o : Option Kind.hair.Attributes) :
    hairClauses (o.map Kind.hair.said) = hairClauses o := by
  rcases o with _ | ⟨label, length, style, color, customColor, physics, ⟨⟩⟩
  · rfl
  · show hairClauses
      (some (filled? label, filled? length, filled? style, filled? color, filled? customColor,
        filled? physics, ())) = _
    simp only [hairClauses, HairLook.ofAttributes, HairLook.text_filled?]

theorem attireClauses_said (o : Option Kind.attire.Attributes) (ownProps : Option String) :
    attireClauses (o.map Kind.attire.said) ownProps = attireClauses o ownProps := by
  rcases o with _ | ⟨label, top, bottom, footwear, props, ⟨⟩⟩
  · rfl
  · show attireClauses
      (some (filled? label, filled? top, filled? bottom, filled? footwear, filled? props, ()))
        ownProps = _
    simp only [attireClauses, List.filterMap_cons, filled?_filled?, labelled_filled?]

theorem poseClauses_said (o : Option Kind.pose.Attributes) :
    poseClauses (o.map Kind.pose.said) = poseClauses o := by
  rcases o with _ | ⟨label, pose, ⟨⟩⟩
  · rfl
  · show poseClauses (some (filled? label, filled? pose, ())) = _
    simp only [poseClauses, labelled_filled?]

theorem ambientClauses_said (a : Kind.globalIllumination.Attributes) :
    ambientClauses (Kind.globalIllumination.said a) = ambientClauses a := by
  obtain ⟨label, description, intensity, ⟨⟩⟩ := a
  show ambientClauses (filled? label, filled? description, intensity, ()) = _
  simp only [ambientClauses, filled?_filled?]

/-! ## The record of a node itself -/

theorem cameraRootClauses_said (g : Graph α) (id : String) (a : Kind.cameraRoot.Attributes) :
    cameraRootClauses g id (Kind.cameraRoot.said a) = cameraRootClauses g id a := by
  obtain ⟨label, model, ⟨⟩⟩ := a
  show cameraRootClauses g id (filled? label, filled? model, ()) = _
  simp only [cameraRootClauses, filled?_filled?]

theorem cameraClauses_said (a : Kind.camera.Attributes) :
    cameraClauses (Kind.camera.said a) = cameraClauses a := by
  obtain ⟨label, model, lens, film, aperture, ⟨⟩⟩ := a
  show cameraClauses
    (filled? label, filled? model, filled? lens, filled? film, filled? aperture, ()) = _
  simp only [cameraClauses, labelled_filled?]

theorem lightingRootClauses_said (g : Graph α) (id : String) (a : Kind.lightingRoot.Attributes) :
    lightingRootClauses g id (Kind.lightingRoot.said a) = lightingRootClauses g id a := by
  obtain ⟨label, style, temperature, ⟨⟩⟩ := a
  show lightingRootClauses g id (filled? label, filled? style, filled? temperature, ()) = _
  simp only [lightingRootClauses, labelled_filled?]

theorem lightingClauses_said (a : Kind.lighting.Attributes) :
    lightingClauses (Kind.lighting.said a) = lightingClauses a := by
  obtain ⟨label, style, setups, ⟨⟩⟩ := a
  show lightingClauses (filled? label, filled? style, setups, ()) = _
  simp only [lightingClauses, labelled_filled?]

theorem environmentRootClauses_said (g : Graph α) (id : String)
    (a : Kind.environmentRoot.Attributes) :
    environmentRootClauses g id (Kind.environmentRoot.said a) = environmentRootClauses g id a := by
  obtain ⟨label, description, image, ⟨⟩⟩ := a
  show environmentRootClauses g id (filled? label, filled? description, image, ()) = _
  simp only [environmentRootClauses, labelled_filled?]

theorem compositionClauses_said (a : Kind.composition.Attributes) :
    compositionClauses (Kind.composition.said a) = compositionClauses a := by
  obtain ⟨label, genre, type, ratio, vibe, ⟨⟩⟩ := a
  show compositionClauses (filled? label, filled? genre, filled? type, ratio, filled? vibe, ()) = _
  simp only [compositionClauses, labelled_filled?]

theorem styleClauses_said (g : Graph α) (id : String) (a : Kind.style.Attributes) :
    styleClauses g id (Kind.style.said a) = styleClauses g id a := by
  obtain ⟨label, photographic, grade, ⟨⟩⟩ := a
  show styleClauses g id (filled? label, filled? photographic, filled? grade, ()) = _
  simp only [styleClauses, labelled_filled?]

theorem identityText_filled? (gender : Option Gender) (age ethnicity : Option String) :
    identityText gender (filled? age) (filled? ethnicity) = identityText gender age ethnicity := by
  unfold identityText
  rw [filled?_filled?, filled?_filled?]

theorem subjectClauses_said (a : Kind.subject.Attributes) :
    subjectClauses (Kind.subject.said a) = subjectClauses a := by
  obtain ⟨label, gender, age, ethnicity, bodyType, pose, length, style, color, props, ⟨⟩⟩ := a
  have htext : (HairLook.mk (filled? length) (filled? style) (filled? color) none none).text =
      (HairLook.mk length style color none none).text :=
    HairLook.text_filled? length style color none none
  show subjectClauses
    (filled? label, gender, filled? age, filled? ethnicity, filled? bodyType, filled? pose,
      filled? length, filled? style, filled? color, filled? props, ()) = _
  simp only [subjectClauses, filled?_filled?, labelled_filled?, isSet_filled?,
    identityText_filled?, htext]

theorem environmentClauses_said (a : Kind.environment.Attributes) :
    environmentClauses (Kind.environment.said a) = environmentClauses a := by
  obtain ⟨label, type, landscape, architecture, building, description, location, time, image, ⟨⟩⟩ :=
    a
  show environmentClauses
    (filled? label, type, filled? landscape, filled? architecture, filled? building,
      filled? description, filled? location, filled? time, image, ()) = _
  simp only [environmentClauses, List.filterMap_cons, filled?_filled?, labelled_filled?,
    isSet_filled?]

theorem lightSourceClauses_said (g : Graph α) (id : String) (a : Kind.lightSource.Attributes) :
    lightSourceClauses g id (Kind.lightSource.said a) = lightSourceClauses g id a := by
  obtain ⟨label, type, temperature, position, power, showEquipment, ⟨⟩⟩ := a
  show lightSourceClauses g id
    (filled? label, filled? type, filled? temperature, filled? position, power, showEquipment, ()) =
      _
  simp only [lightSourceClauses, filled?_filled?, labelled_filled?]

/-! ## Bodies and subjects -/

/-- What a body may say in place of its subject. -/
inductive Trait where
  | age
  | ethnicity
  | physique

namespace Trait

def ofBody : Trait → Kind.body.Attributes → Option String
  | .age, (_, _, text, _) => text
  | .ethnicity, (_, _, _, text, _) => text
  | .physique, (_, _, _, _, text, _) => text

def ofSubject : Trait → Kind.subjectRoot.Attributes → Option String
  | .age, (_, _, _, text, _) => text
  | .ethnicity, (_, _, _, _, text, _) => text
  | .physique, (_, _, _, _, _, text, _) => text

/-- The text that is taken. -/
def preferred (t : Trait) (body : Option Kind.body.Attributes) (own : Kind.subjectRoot.Attributes) :
    Option String :=
  preferBody (body.bind t.ofBody) (t.ofSubject own)

end Trait

/-- Who a subject is, once it is known which texts are taken. -/
def personOf (label : Option String) (gender : Option Gender) (trait : Trait → Option String)
    (skin : Option SkinRealism) : List Clause :=
  if gender.isSome || isSet (trait .age) || isSet (trait .ethnicity) || isSet (trait .physique) then
    let skinClauses : List Clause := match skin with
      | some s =>
        if s.enabled && !(gender.map Gender.isSculptural).getD false then
          (skinTexts s gender).map .text
        else []
      | none => []
    .text (identityText gender (trait .age) (trait .ethnicity))
      :: labelled "Physique" (trait .physique) ++ skinClauses
  else labelled "Subject" label

theorem personClauses_eq (body : Option Kind.body.Attributes) (own : Kind.subjectRoot.Attributes) :
    personClauses body own =
      personOf own.1 ((body.bind (·.2.1)).orElse fun _ => own.2.2.1) (·.preferred body own)
        (body.bind (·.2.2.2.2.2.1)) := by
  cases body <;> rfl

theorem personOf_filled? (label : Option String) (gender : Option Gender)
    (trait : Trait → Option String) (skin : Option SkinRealism) :
    personOf (filled? label) gender (fun t => filled? (trait t)) skin =
      personOf label gender trait skin := by
  simp only [personOf, isSet_filled?, labelled_filled?, identityText_filled?]

/-- A text of the body counts if it is there, whatever the text of the subject says. -/
theorem filled?_preferBody (body own : Option String) :
    filled? (preferBody body (filled? own)) = filled? (preferBody body own) := by
  unfold preferBody
  split
  · split
    · exact filled?_filled? own
    · rfl
  · exact filled?_filled? own

theorem personClauses_said (body : Option Kind.body.Attributes)
    (own : Kind.subjectRoot.Attributes) :
    personClauses body (Kind.subjectRoot.said own) = personClauses body own := by
  have htrait : ∀ t : Trait, filled? (t.preferred body (Kind.subjectRoot.said own)) =
      filled? (t.preferred body own) := by
    intro t
    have hown : t.ofSubject (Kind.subjectRoot.said own) = filled? (t.ofSubject own) := by
      cases t <;> rfl
    rw [Trait.preferred, Trait.preferred, hown, filled?_preferBody]
  have hlabel : filled? (Kind.subjectRoot.said own).1 = filled? own.1 := filled?_filled? own.1
  have hgender : (Kind.subjectRoot.said own).2.2.1 = own.2.2.1 := rfl
  rw [personClauses_eq, personClauses_eq, ← personOf_filled?, ← personOf_filled? own.1]
  simp only [htrait, hlabel, hgender]

theorem subjectRootClauses_said (g : Graph α) (library : SubjectLibrary) (id : String)
    (a : Kind.subjectRoot.Attributes) :
    subjectRootClauses g library id (Kind.subjectRoot.said a) =
      subjectRootClauses g library id a := by
  have hperson := personClauses_said (firstAttributes? g id .body) a
  have hprops : ∀ attire props,
      attireClauses attire (filled? props) = attireClauses attire props := by
    intro attire props
    cases attire with
    | none => exact labelled_filled? _ _
    | some _ => rfl
  obtain ⟨label, selected, gender, age, ethnicity, bodyType, mode, props, ⟨⟩⟩ := a
  have hsaid : Kind.subjectRoot.said
      (label, selected, gender, age, ethnicity, bodyType, mode, props, ()) =
        (filled? label, selected, gender, filled? age, filled? ethnicity, filled? bodyType, mode,
          filled? props, ()) := by
    rfl
  rw [hsaid] at hperson ⊢
  simp only [subjectRootClauses, hprops, hperson]

/-! ## All nodes -/

/-- The clauses of a node say what its texts say. -/
theorem clausesOf_said (g : Graph α) (library : SubjectLibrary) (id : String) {k : Kind}
    (hk : k.isSilent = false) (a : k.Attributes) :
    clausesOf g library id k (k.said a) = clausesOf g library id k a := by
  cases k with
  | subjectRoot => exact subjectRootClauses_said g library id a
  | subject => exact subjectClauses_said a
  | cameraRoot => exact cameraRootClauses_said g id a
  | camera => exact cameraClauses_said a
  | lightingRoot => exact lightingRootClauses_said g id a
  | lightSource => exact lightSourceClauses_said g id a
  | lighting => exact lightingClauses_said a
  | environmentRoot => exact environmentRootClauses_said g id a
  | environment => exact environmentClauses_said a
  | composition => exact compositionClauses_said a
  | style => exact styleClauses_said g id a
  | hair => exact hairClauses_said (some a)
  | comment => cases hk
  | _ => rfl

end Prompt
end PromptCanvas
