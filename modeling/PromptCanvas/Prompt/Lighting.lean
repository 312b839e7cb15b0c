import PromptCanvas.Prompt.Clause

/-!
# Lighting

The light sources with their modifiers, and the light that is everywhere.
-/

namespace PromptCanvas
namespace Prompt

variable {α : Type}

/-- The modifiers that feed a light source and say something. -/
def modifiers (g : Graph α) (id : String) : List String :=
  (inputAttributes g id .lightModifier).filterMap fun (_, type, ()) => filled? type

/-- One light: an effect from off the picture, unless its equipment is to be seen. -/
def lightSourceClauses (g : Graph α) (id : String) : Kind.lightSource.Attributes → List Clause
  | (_, type, temperature, position, power, showEquipment, ()) =>
    match filled? type with
    | none => []
    | some t =>
      let light := match filled? temperature, showEquipment with
        | some k, true => s!"Light Source: {t} ({k}) visible in frame."
        | none, true => s!"Light Source: {t} visible in frame."
        | some k, false => s!"Lighting: {t} (off-screen source), {k}."
        | none, false => s!"Lighting: {t} (off-screen source)."
      .text light :: labelled "Light Position" position
        ++ (power.map fun p => Clause.text s!"Light Power: {p}%.").toList
        ++ listed "Shaped with" ", " (modifiers g id)

/-- The light that is everywhere. -/
def ambientClauses : Kind.globalIllumination.Attributes → List Clause
  | (_, description, intensity, ()) =>
    match filled? description, intensity with
    | none, _ => []
    | some d, some i => [.text s!"Ambient Light: {d} at {i}% intensity."]
    | some d, none => [.text s!"Ambient Light: {d}."]

/-- The light sources that feed a node, each with what feeds it. -/
def sourceClauses (g : Graph α) (id : String) : List Clause :=
  (g.inputs id).flatMap fun n =>
    match n.attributesAs .lightSource with
    | some a => lightSourceClauses g n.id a
    | none => []

/-- The lighting with what feeds it. -/
def lightingRootClauses (g : Graph α) (id : String) : Kind.lightingRoot.Attributes → List Clause
  | (_, style, temperature, ()) =>
    labelled "Lighting Style" style ++ labelled "Color Temperature" temperature
      ++ sourceClauses g id
      ++ (inputAttributes g id .globalIllumination).flatMap ambientClauses

/-- Lighting that is one node. -/
def lightingClauses : Kind.lighting.Attributes → List Clause
  | (_, style, setups, ()) =>
    labelled "Lighting Style" style
      ++ listed "Setup:" ", " (setups.filter fun s => isSet (some s))

end Prompt
end PromptCanvas
