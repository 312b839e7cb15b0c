import PromptCanvas.Library.Profile
import PromptCanvas.Prompt.Clause

/-!
# Subjects

Who is in the picture: the identity, the skin, the hair, what is worn and how the subject stands.
-/

namespace PromptCanvas
namespace Prompt

/-- What is said of a figure of stone. -/
def obsidianMaterial : String :=
  "The figure is crafted from polished black obsidian. The surface possesses a unique "
    ++ "matte finish that mimics the subsurface scattering and texture of living skin, "
    ++ "ensuring light interacts with the form naturally despite the dark material. "
    ++ "It is a high-contrast artistic study tool."

/-- Who the subject is, or what a figure is made of. -/
def identityText (gender : Option Gender) (age ethnicity : Option String) : String :=
  let person : String :=
    let words := [some ((filled? age).getD "young"), filled? ethnicity,
      some ((gender.map Gender.name).getD "person")]
    s!"Subject is a {joinTexts (words.filterMap id)}."
  match gender with
  | some g => if g.isSculptural then s!"The subject is a {g.name}. {obsidianMaterial}" else person
  | none => person

/-! ## Skin -/

/-- The details of skin with their phrases. -/
def skinDetails (d : SkinDetails) : List (Bool × String) := [
  (d.pores, "visible pores"),
  (d.freckles, "natural freckles"),
  (d.wrinkles, "fine lines and wrinkles"),
  (d.veins, "subtle subsurface veins"),
  (d.scars, "small natural scars"),
  (d.stretchMarks, "natural stretch marks"),
  (d.cellulite, "gentle cellulite texture"),
  (d.discoloration, "natural skin tone variations")]

/-- The clauses of skin, graded by intensity: above 90, above 60, or soft.  Cellulite is left out
for a man. -/
def skinTexts (skin : SkinRealism) (gender : Option Gender) : List String :=
  let (adjective, cues) : String × Option String :=
    if 90 < skin.intensity then
      ("hyper-realistic, dermatological texture, sharp focus",
        some "micro-contrast, skin sheen, slight sweat, peach fuzz, unmasked texture")
    else if 60 < skin.intensity then
      ("raw, unretouched, authentic", some "natural skin gloss, tactile texture")
    else ("softly textured", none)
  let visible := { skin.details with
    cellulite := skin.details.cellulite && gender != some .man }
  let details := (skinDetails visible).filterMap fun (shown, phrase) =>
    if shown then some phrase else none
  [s!"Skin texture is {adjective}."]
    ++ (cues.map fun c => s!"Texture cues: {c}.").toList
    ++ (if details.isEmpty then [] else ["Visible details: " ++ ", ".intercalate details ++ "."])

/-! ## Hair -/

/-- What is known about hair. -/
structure HairLook where
  length : Option String
  style : Option String
  color : Option String
  customColor : Option String
  physics : Option String
deriving Repr, DecidableEq

/-- The colour under which the custom colour is meant. -/
def customHairColor : String := "Other..."

/-- The clause of hair; empty if nothing is known. -/
def HairLook.text (h : HairLook) : String :=
  let color := if h.color == some customHairColor then h.customColor else h.color
  let parts := [h.length, h.style, color].filterMap filled?
  let physics := match filled? h.physics with
    | some p => s!", {p}"
    | none => ""
  if parts.isEmpty then "" else "Hair: " ++ " ".intercalate parts ++ physics ++ "."

/-- The look that the attributes of a hair node describe. -/
def HairLook.ofAttributes : Kind.hair.Attributes → HairLook
  | (_, length, style, color, customColor, physics, ()) =>
    ⟨length, style, color, customColor, physics⟩

/-! ## The subject of the granular pipeline -/

variable {α : Type}

/-- A text of the body, or else of the subject itself.  A text that is there counts even if it says
nothing. -/
def preferBody (body own : Option String) : Option String :=
  match body with
  | some s => if s.isEmpty then own else some s
  | none => own

/-- The reference image that feeds a subject first. -/
def identityClauses (g : Graph α) (id : String) (mode : Consistency) : List Clause :=
  match firstAttributes? g id .reference with
  | some (_, some image, ()) => [.mention (.identity mode) image]
  | _ => []

/-- The profile that a subject refers to. -/
def profileClauses (library : SubjectLibrary) (selected : Option String) : List Clause :=
  match selected with
  | none => []
  | some id =>
    if id.isEmpty then []
    else match Keyed.find? id library with
      | none => []
      | some p => .text s!"Reference Identity: {p.name}." :: p.images.map .attachment

/-- Who a subject is, as its body and its own attributes say; failing both, its label. -/
def personClauses (body : Option Kind.body.Attributes) (own : Kind.subjectRoot.Attributes) :
    List Clause :=
  let (label, _, ownGender, ownAge, ownEthnicity, ownType, _, _, ()) := own
  let (bodyGender, bodyAge, bodyEthnicity, bodyType, skin) :
      Option Gender × Option String × Option String × Option String × Option SkinRealism :=
    match body with
    | some (_, gender, age, ethnicity, bodyType, skin, ()) =>
      (gender, age, ethnicity, bodyType, skin)
    | none => (none, none, none, none, none)
  let gender := bodyGender.orElse fun _ => ownGender
  let age := preferBody bodyAge ownAge
  let ethnicity := preferBody bodyEthnicity ownEthnicity
  let physique := preferBody bodyType ownType
  if gender.isSome || isSet age || isSet ethnicity || isSet physique then
    let skinClauses : List Clause := match skin with
      | some s =>
        if s.enabled && !(gender.map Gender.isSculptural).getD false then
          (skinTexts s gender).map .text
        else []
      | none => []
    .text (identityText gender age ethnicity) :: labelled "Physique" physique ++ skinClauses
  else labelled "Subject" label

def faceClauses : Option Kind.face.Attributes → List Clause
  | none => []
  | some (_, eyeColor, makeup, description, ()) =>
    listed "Features:" ", " ([
      (filled? eyeColor).map (· ++ " eyes"),
      (filled? makeup).map ("wearing " ++ ·),
      filled? description].filterMap id)

def hairClauses : Option Kind.hair.Attributes → List Clause
  | none => []
  | some a => [.text (HairLook.ofAttributes a).text]

/-- What is worn; without an attire node, the props of the subject itself. -/
def attireClauses (attire : Option Kind.attire.Attributes) (ownProps : Option String) :
    List Clause :=
  match attire with
  | some (_, top, bottom, footwear, props, ()) =>
    listed "Attire:" ", " ([top, bottom, footwear].filterMap filled?)
      ++ labelled "Accessories" props
  | none => labelled "Attire/Props" ownProps

def poseClauses : Option Kind.pose.Attributes → List Clause
  | none => []
  | some (_, pose, ()) => labelled "Pose" pose

/-- A subject with what feeds it. -/
def subjectRootClauses (g : Graph α) (library : SubjectLibrary) (id : String)
    (own : Kind.subjectRoot.Attributes) : List Clause :=
  let (_, selected, _, _, _, _, mode, props, ()) := own
  identityClauses g id mode
    ++ profileClauses library selected
    ++ personClauses (firstAttributes? g id .body) own
    ++ faceClauses (firstAttributes? g id .face)
    ++ hairClauses (firstAttributes? g id .hair)
    ++ attireClauses (firstAttributes? g id .attire) props
    ++ poseClauses (firstAttributes? g id .pose)

/-! ## The flat subject -/

/-- A subject that is one node. -/
def subjectClauses : Kind.subject.Attributes → List Clause
  | (_, gender, age, ethnicity, bodyType, pose, hairLength, hairStyle, hairColor, props, ()) =>
    let named : List Clause := listed "Subject:" " "
      ([filled? ethnicity, filled? (gender.map Gender.name), filled? age].filterMap id)
    let person : List Clause := match gender with
      | some g => if g.isSculptural then [.text (identityText gender age ethnicity)] else named
      | none => named
    let hair : List Clause :=
      if isSet hairStyle || isSet hairColor then
        [.text (HairLook.mk hairLength hairStyle hairColor none none).text]
      else []
    person ++ labelled "Physique" bodyType ++ hair ++ labelled "Pose" pose ++ labelled "Props" props

end Prompt
end PromptCanvas
