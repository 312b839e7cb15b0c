import PromptCanvas.Record.Reading

/-!
# Choices

The attributes that take one of a fixed list of values.
-/

namespace PromptCanvas

open Record

inductive Gender where
  | woman | man | nonBinary | obsidianFemale | obsidianMale | obsidianNeutral
deriving Repr, DecidableEq

namespace Gender

def name : Gender → String
  | .woman => "woman"
  | .man => "man"
  | .nonBinary => "non-binary person"
  | .obsidianFemale => "female obsidian figure"
  | .obsidianMale => "male obsidian figure"
  | .obsidianNeutral => "neutral obsidian figure"

instance : Labelled Gender where
  all := [.woman, .man, .nonBinary, .obsidianFemale, .obsidianMale, .obsidianNeutral]
  label := name

/-- A figure of stone rather than a person. -/
def isSculptural : Gender → Bool
  | .obsidianFemale | .obsidianMale | .obsidianNeutral => true
  | _ => false

end Gender

/-- How strictly a reference image pins the subject's identity. -/
inductive Consistency where
  | faceOnly | faceAndHair | fullCharacter
deriving Repr, DecidableEq

instance : Labelled Consistency where
  all := [.faceOnly, .faceAndHair, .fullCharacter]
  label
    | .faceOnly => "Face Only"
    | .faceAndHair => "Face & Hair"
    | .fullCharacter => "Full Character"

inductive AspectRatio where
  | square | portrait | landscape | tall | wide | cinema
deriving Repr, DecidableEq

namespace AspectRatio

def name : AspectRatio → String
  | .square => "1:1"
  | .portrait => "3:4"
  | .landscape => "4:3"
  | .tall => "9:16"
  | .wide => "16:9"
  | .cinema => "21:9"

instance : Labelled AspectRatio where
  all := [.square, .portrait, .landscape, .tall, .wide, .cinema]
  label := name
  named := false

end AspectRatio

/-- Where a location lies. -/
inductive Setting where
  | interior | exterior
deriving Repr, DecidableEq

namespace Setting

def name : Setting → String
  | .interior => "Interior"
  | .exterior => "Exterior"

instance : Labelled Setting where
  all := [.interior, .exterior]
  label := name
  named := false

end Setting

inductive EnvironmentType where
  | general | landscape | architecture
deriving Repr, DecidableEq

instance : Labelled EnvironmentType where
  all := [.general, .landscape, .architecture]
  label
    | .general => "General"
    | .landscape => "Landscape"
    | .architecture => "Architecture"
  named := false

end PromptCanvas
