import PromptCanvas.Record.Reading

/-!
# Node kinds

Every node has one kind.  Kinds belong to pipelines, which the canvas colours alike: the granular
subject, camera, lighting and environment pipelines, the flat composition level, a few utility
kinds, and the one output.  The names are what documents carry.
-/

namespace PromptCanvas

inductive Kind where
  | subjectRoot | body | face | hair | attire | pose
  | cameraRoot | lens | film | cameraSettings
  | lightingRoot | lightSource | lightModifier | globalIllumination
  | environmentRoot | location | atmosphere
  | composition | style | environment | camera | lighting | subject
  | reference | comment | group | assembler
  | output
deriving Repr, DecidableEq, Inhabited

namespace Kind

/-- Every kind, in the order of the palette. -/
def all : List Kind := [
  .subjectRoot, .body, .face, .hair, .attire, .pose,
  .cameraRoot, .lens, .film, .cameraSettings,
  .lightingRoot, .lightSource, .lightModifier, .globalIllumination,
  .environmentRoot, .location, .atmosphere,
  .composition, .style, .environment, .camera, .lighting, .subject,
  .reference, .comment, .group, .assembler,
  .output]

def name : Kind → String
  | .subjectRoot => "subject_root"
  | .body => "body"
  | .face => "face"
  | .hair => "hair"
  | .attire => "attire"
  | .pose => "pose"
  | .cameraRoot => "camera_root"
  | .lens => "lens"
  | .film => "film"
  | .cameraSettings => "camera_settings"
  | .lightingRoot => "lighting_root"
  | .lightSource => "light_source"
  | .lightModifier => "light_modifier"
  | .globalIllumination => "global_illumination"
  | .environmentRoot => "environment_root"
  | .location => "location"
  | .atmosphere => "atmosphere"
  | .composition => "composition"
  | .style => "style"
  | .environment => "environment"
  | .camera => "camera"
  | .lighting => "lighting"
  | .subject => "subject"
  | .reference => "reference"
  | .comment => "comment"
  | .group => "group"
  | .assembler => "assembler"
  | .output => "output"

instance : Record.Labelled Kind where
  all := all
  label := name

/-- The kind with a name. -/
def ofName? (s : String) : Option Kind := Record.Labelled.find? s

/-- The name of the kind's attribute record: the words of the kind's name, each with a capital. -/
def recordName (k : Kind) : String :=
  let words := k.name.splitOn "_"
  String.join (words.map String.capitalize) ++ "Attributes"

/-- A kind whose nodes the others may always feed. -/
def isSink (k : Kind) : Bool :=
  match k with
  | .assembler | .group | .comment => true
  | _ => false

/-- The kind's pipeline. -/
def pipeline : Kind → String
  | .subjectRoot | .body | .face | .hair | .attire | .pose => "subject"
  | .cameraRoot | .lens | .film | .cameraSettings => "camera"
  | .lightingRoot | .lightSource | .lightModifier | .globalIllumination => "lighting"
  | .environmentRoot | .location | .atmosphere => "environment"
  | .composition | .style | .environment | .camera | .lighting | .subject => "composition"
  | .reference | .comment | .group | .assembler => "utility"
  | .output => "output"

/-- The kinds that a kind may feed besides the sinks.  A kind without an entry feeds sinks alone. -/
def feeds : Kind → List Kind
  | .body | .face | .hair | .attire | .pose => [.subjectRoot]
  | .subjectRoot => [.composition, .group, .output]
  | .lens | .film | .cameraSettings => [.cameraRoot]
  | .cameraRoot => [.composition, .output]
  | .lightModifier => [.lightSource]
  | .globalIllumination => [.lightingRoot]
  | .lightSource => [.lightingRoot, .output]
  | .lightingRoot => [.composition, .output]
  | .location | .atmosphere => [.environmentRoot]
  | .environmentRoot => [.composition, .output]
  | .environment => [.output]
  | .composition => [.style, .output]
  | .style => [.output]
  | .reference => [.subjectRoot, .face, .attire, .style]
  | .assembler => [.composition, .subjectRoot, .cameraRoot, .lightingRoot, .environmentRoot]
  | .group => [.composition]
  | .camera | .lighting | .subject | .comment | .output => []

/-- A node of the first kind may feed a node of the second. -/
def canFeed (source target : Kind) : Bool := target.isSink || source.feeds.contains target

/-- The kinds that a kind may feed, in palette order. -/
def targets (k : Kind) : List Kind := all.filter k.canFeed

/-- The names of the kinds that a kind may feed, in alphabetic order. -/
def targetNames (k : Kind) : List String :=
  (k.targets.map name).mergeSort (· ≤ ·)

/-- A kind that the compiler looks through for stage roots that do not feed the output directly. -/
def isHub (k : Kind) : Bool :=
  match k with
  | .composition | .style | .assembler | .group => true
  | _ => false

end Kind
end PromptCanvas
