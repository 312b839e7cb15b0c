import PromptCanvas.Record.Reading

/-!
# Skin realism

How strongly, and with which details, skin is described.
-/

namespace PromptCanvas

open Record

structure SkinDetails where
  pores : Bool
  freckles : Bool
  wrinkles : Bool
  veins : Bool
  scars : Bool
  stretchMarks : Bool
  cellulite : Bool
  discoloration : Bool
deriving Repr, DecidableEq

namespace SkinDetails

def none : SkinDetails := ⟨false, false, false, false, false, false, false, false⟩

def names : List String :=
  ["pores", "freckles", "wrinkles", "veins", "scars", "stretch_marks", "cellulite",
    "discoloration"]

def read : Reading SkinDetails :=
  Reading.record "SkinDetails" fun o =>
    let flag (name : String) : Checked Bool := Reading.given o name Reading.flag false
    let firstTwo := Checked.both mk (flag "pores") (flag "freckles")
    let all := ((((((firstTwo.ap (flag "wrinkles")).ap (flag "veins")).ap (flag "scars")).ap
      (flag "stretch_marks")).ap (flag "cellulite")).ap (flag "discoloration"))
    Reading.closed names o all

def toJson (d : SkinDetails) : Json := .obj [
  ("pores", .bool d.pores), ("freckles", .bool d.freckles), ("wrinkles", .bool d.wrinkles),
  ("veins", .bool d.veins), ("scars", .bool d.scars), ("stretch_marks", .bool d.stretchMarks),
  ("cellulite", .bool d.cellulite), ("discoloration", .bool d.discoloration)]

end SkinDetails

structure SkinRealism where
  enabled : Bool
  intensity : Int
  details : SkinDetails
deriving Repr, DecidableEq

namespace SkinRealism

def read : Reading SkinRealism :=
  Reading.record "SkinRealism" fun o =>
    let fields := (Checked.both mk
        (Reading.given o "enabled" Reading.flag false)
        (Reading.given o "intensity" (Reading.wholeWithin 0 (some 100)) 60)).ap
      (Reading.given o "details" SkinDetails.read .none)
    Reading.closed ["enabled", "intensity", "details"] o fields

def toJson (s : SkinRealism) : Json := .obj [
  ("enabled", .bool s.enabled), ("intensity", .int s.intensity), ("details", s.details.toJson)]

end SkinRealism
end PromptCanvas
