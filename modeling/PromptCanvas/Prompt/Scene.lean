import PromptCanvas.Prompt.Clause

/-!
# Scene and look

Where the picture is taken, how it is composed and in which style.
-/

namespace PromptCanvas
namespace Prompt

variable {α : Type}

/-! ## Environment -/

def sceneImageClauses : Option ImageRef → List Clause
  | some image => [.mention .scene image]
  | none => []

def locationClauses : Option Kind.location.Attributes → List Clause
  | none => []
  | some (_, name, _, _, setting, date, time, ()) =>
    let place : List Clause := match filled? name, setting with
      | some n, some s => [.text s!"Location: {n} ({s.name})."]
      | some n, none => [.text s!"Location: {n}."]
      | none, some s => [.text s!"Setting: {s.name}."]
      | none, none => []
    place ++ labelled "Date" date ++ labelled "Time" time

def atmosphereClauses : Option Kind.atmosphere.Attributes → List Clause
  | none => []
  | some (_, weather, season, haze, ()) =>
    labelled "Weather" weather ++ labelled "Season" season ++ labelled "Atmosphere" haze

/-- An environment with what feeds it. -/
def environmentRootClauses (g : Graph α) (id : String) :
    Kind.environmentRoot.Attributes → List Clause
  | (_, description, image, ()) =>
    labelled "Scene" description
      ++ locationClauses (firstAttributes? g id .location)
      ++ atmosphereClauses (firstAttributes? g id .atmosphere)
      ++ sceneImageClauses image

/-- An environment that is one node. -/
def environmentClauses : Kind.environment.Attributes → List Clause
  | (_, type, landscape, architecture, building, description, location, time, image, ()) =>
    let kindClauses : List Clause := match type with
      | .general => []
      | .landscape => labelled "Landscape" landscape
      | .architecture => listed "Architecture:" " " ([architecture, building].filterMap filled?)
    kindClauses ++ labelled "Scene" description ++ labelled "Location" location
      ++ (if isSet location then labelled "Time" time else [])
      ++ sceneImageClauses image

/-! ## Composition and style -/

def compositionClauses : Kind.composition.Attributes → List Clause
  | (_, genre, type, _, vibe, ()) =>
    labelled "Genre" genre ++ labelled "Composition" type ++ labelled "Vibe" vibe

/-- The aspect ratio of a composition. -/
def aspectRatio? : Kind.composition.Attributes → Option AspectRatio
  | (_, _, _, ratio, _, ()) => ratio

/-- A style with the reference images that feed it. -/
def styleClauses (g : Graph α) (id : String) : Kind.style.Attributes → List Clause
  | (_, photographic, grade, ()) =>
    labelled "Photographic Style" photographic ++ labelled "Color Grade" grade
      ++ (inputAttributes g id .reference).filterMap fun (_, image, ()) =>
        image.map (Clause.mention .style)

end Prompt
end PromptCanvas
