import PromptCanvas.Prompt.Clause

/-!
# Cameras

The camera with its lens, its film and its settings.
-/

namespace PromptCanvas
namespace Prompt

variable {α : Type}

def lensClauses : Option Kind.lens.Attributes → List Clause
  | none => []
  | some (_, model, aperture, character, ()) =>
    labelled "Lens" model ++ labelled "Aperture" aperture ++ labelled "Optics" character

def filmClauses : Option Kind.film.Attributes → List Clause
  | none => []
  | some (_, stock, grain, ()) => labelled "Film" stock ++ labelled "Texture" grain

def exposureClauses : Option Kind.cameraSettings.Attributes → List Clause
  | none => []
  | some (_, shutter, iso, sensor, ()) =>
    labelled "Shutter" shutter ++ labelled "ISO" iso ++ labelled "Sensor" sensor

/-- A camera with what feeds it. -/
def cameraRootClauses (g : Graph α) (id : String) : Kind.cameraRoot.Attributes → List Clause
  | (_, model, ()) =>
    let shot : List Clause := match filled? model with
      | some m => [.text s!"Shot on {m}."]
      | none => []
    shot
      ++ lensClauses (firstAttributes? g id .lens)
      ++ filmClauses (firstAttributes? g id .film)
      ++ exposureClauses (firstAttributes? g id .cameraSettings)

/-- A camera that is one node. -/
def cameraClauses : Kind.camera.Attributes → List Clause
  | (_, model, lens, film, aperture, ()) =>
    labelled "Camera" model ++ labelled "Lens" lens ++ labelled "Aperture" aperture
      ++ labelled "Film" film

end Prompt
end PromptCanvas
