import PromptCanvas.Node.Field
import PromptCanvas.Node.Kind

/-!
# The attribute records of the kinds

The fields that are meaningful for each kind.  Every kind has a label first; a field that holds
nothing leaves its clause out of the prompt.
-/

namespace PromptCanvas

open Record

namespace Kind

/-- The fields of a kind besides the label. -/
abbrev ownFields : Kind → List Field
  | .subjectRoot => [
    .text "selected_subject_id", ⟨"gender", .gender, none⟩, .text "age", .text "ethnicity",
    .text "body_type", ⟨"consistency_mode", .consistency, .faceOnly⟩, .text "props_text"]
  | .body => [
    ⟨"gender", .gender, none⟩, .text "age", .text "ethnicity", .text "body_type",
    ⟨"skin_realism", .skin, none⟩]
  | .face => [.text "eye_color", .text "makeup", .text "character_description"]
  | .hair => [
    .text "hair_length", .text "hair_style", .text "hair_color", .text "custom_hair_color",
    .text "hair_physics"]
  | .attire => [
    .text "clothing_top", .text "clothing_bottom", .text "footwear", .text "props_text"]
  | .pose => [.text "pose"]
  | .cameraRoot => [.text "camera_model"]
  | .lens => [.text "lens_model", .text "aperture", .text "lens_char"]
  | .film => [.text "film_stock", .text "grain"]
  | .cameraSettings => [.text "shutter_speed", .text "iso", .text "sensor_size"]
  | .lightingRoot => [.text "lighting_style", .text "color_temperature"]
  | .lightSource => [
    .text "light_source_type", .text "light_color_temperature", .text "light_position",
    ⟨"power", .percent, none⟩, ⟨"show_equipment", .flag, false⟩]
  | .lightModifier => [.text "modifier_type"]
  | .globalIllumination => [.text "description", ⟨"intensity", .percent, none⟩]
  | .environmentRoot => [.text "scene_description", ⟨"scene_image", .image, none⟩]
  | .location => [
    .text "name", ⟨"latitude", .degrees 90, none⟩, ⟨"longitude", .degrees 180, none⟩,
    ⟨"context", .setting, none⟩, .text "date", .text "time"]
  | .atmosphere => [.text "weather", .text "season", .text "haze"]
  | .composition => [
    .text "genre", .text "composition_type", ⟨"aspect_ratio", .aspectRatio, none⟩, .text "vibe"]
  | .style => [.text "photographic_style", .text "color_grade"]
  | .environment => [
    ⟨"env_type", .environmentType, .general⟩, .text "landscape_type",
    .text "architecture_style", .text "building_type", .text "scene_description",
    .text "location_name", .text "time", ⟨"scene_image", .image, none⟩]
  | .camera => [.text "camera_model", .text "lens_model", .text "film_stock", .text "aperture"]
  | .lighting => [.text "lighting_style", ⟨"lighting_setups", .texts, []⟩]
  | .subject => [
    ⟨"gender", .gender, none⟩, .text "age", .text "ethnicity", .text "body_type", .text "pose",
    .text "hair_length", .text "hair_style", .text "hair_color", .text "props_text"]
  | .reference => [⟨"reference_image", .image, none⟩]
  | .comment => [.text "text"]
  | .group => []
  | .assembler => []
  | .output => []

/-- The label of a record that gives none. -/
def initialLabel : Kind → Option String
  | .output => some "Final Image"
  | _ => none

/-- All fields of a kind, the label first. -/
abbrev fields (k : Kind) : List Field := ⟨"label", .text, k.initialLabel⟩ :: k.ownFields

/-- The attribute record of a kind. -/
abbrev Attributes (k : Kind) : Type := PromptCanvas.Attributes k.fields

/-- What a new node of a kind holds besides its label. -/
def startingValues : (k : Kind) → PromptCanvas.Attributes k.ownFields
  | .subject =>
    (some .woman, none, none, none, some "standing with a confident posture", none, none, none,
      none, ())
  | .environment => (.general, none, none, none, none, none, some "12:00", none, ())
  | .camera => (some "None", some "None", none, some "None", ())
  | .composition => (none, none, some .square, none, ())
  | k => PromptCanvas.Attributes.initial k.ownFields

/-- The label of a new node: the words of its kind. -/
def startingLabel (k : Kind) : Option String :=
  match k with
  | .output => k.initialLabel
  | k => some ("New " ++ String.ofList (k.name.toList.map fun c => if c == '_' then ' ' else c))

/-- The attributes of a new node. -/
def starting (k : Kind) : k.Attributes := (k.startingLabel, k.startingValues)

end Kind

/-- Attributes that do not fit their kind. -/
structure AttributeError where
  kind : Kind
  problems : List Problem
deriving Repr, DecidableEq

def AttributeError.message (e : AttributeError) : String :=
  "Invalid attributes for " ++ e.kind.name ++ " node: "
    ++ "; ".intercalate (e.problems.map Problem.line)

namespace Kind

/-- The problems of a check, as an error of the kind. -/
def refuse {β : Type} (k : Kind) : Checked β → Except AttributeError β
  | .ok b => .ok b
  | .error problems => .error ⟨k, problems⟩

/-- Reads a whole attribute record.  Whatever counts as unset stands for the empty record. -/
def readAttributes (k : Kind) (j : Json) : Except AttributeError k.Attributes :=
  k.refuse <|
    if j.truthy then Reading.record k.recordName (Attributes.readMembers k.fields) j
    else Attributes.readMembers k.fields []

/-- Lays changes over an attribute record. -/
def patchAttributes (k : Kind) (a : k.Attributes) (changes : List (String × Json)) :
    Except AttributeError k.Attributes :=
  k.refuse (Attributes.patch k.fields a changes)

/-- An attribute record as JSON. -/
def writeAttributes (k : Kind) (a : k.Attributes) : Json := .obj (Attributes.write k.fields a)

/-- The label of an attribute record. -/
def label (k : Kind) (a : k.Attributes) : Option String := a.1

end Kind
end PromptCanvas
