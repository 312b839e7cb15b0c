import PromptCanvas.Image.Ref
import PromptCanvas.Node.Choice
import PromptCanvas.Node.Skin

/-!
# Fields and records of attributes

A record is described by its list of fields, and its values are one for each field: the type of a
record is computed from the list.  So a record cannot hold a value that does not belong to it, and
reading, writing and changing are each defined once, for every list of fields.
-/

namespace PromptCanvas

open Record

/-- What a field may hold. -/
inductive FieldType where
  /-- Free text, or nothing. -/
  | text
  | flag
  /-- A whole number from 0 to 100, or nothing. -/
  | percent
  /-- A number of degrees up to a limit on either side of zero, or nothing. -/
  | degrees (limit : Int)
  | gender
  | consistency
  | aspectRatio
  | setting
  | environmentType
  /-- A row of texts. -/
  | texts
  | image
  | skin
deriving Repr, DecidableEq

namespace FieldType

abbrev Value : FieldType → Type
  | .text => Option String
  | .flag => Bool
  | .percent => Option Int
  | .degrees _ => Option Float
  | .gender => Option Gender
  | .consistency => Consistency
  | .aspectRatio => Option AspectRatio
  | .setting => Option Setting
  | .environmentType => EnvironmentType
  | .texts => List String
  | .image => Option ImageRef
  | .skin => Option SkinRealism

def read : (t : FieldType) → Reading t.Value
  | .text => Reading.optional Reading.text
  | .flag => Reading.flag
  | .percent => Reading.optional (Reading.wholeWithin 0 (some 100))
  | .degrees limit => Reading.optional (Reading.realWithin (-limit) limit)
  | .gender => Reading.optional Reading.choice
  | .consistency => Reading.choice
  | .aspectRatio => Reading.optional Reading.choice
  | .setting => Reading.optional Reading.choice
  | .environmentType => Reading.choice
  | .texts => Reading.tuple Reading.text
  | .image => Reading.optional ImageRef.read
  | .skin => Reading.optional SkinRealism.read

def write : (t : FieldType) → t.Value → Json
  | .text => Json.ofOption .str
  | .flag => .bool
  | .percent => Json.ofOption .int
  | .degrees _ => Json.ofOption .float
  | .gender => Json.ofOption Labelled.toJson
  | .consistency => Labelled.toJson
  | .aspectRatio => Json.ofOption Labelled.toJson
  | .setting => Json.ofOption Labelled.toJson
  | .environmentType => Labelled.toJson
  | .texts => fun ts => .arr (ts.map .str)
  | .image => Json.ofOption ImageRef.toJson
  | .skin => Json.ofOption SkinRealism.toJson

end FieldType

/-- A field: its name, what it may hold, and what it holds where nothing is given. -/
structure Field where
  name : String
  type : FieldType
  initial : type.Value

namespace Field

/-- A field of free text that starts out empty. -/
abbrev text (name : String) : Field := ⟨name, .text, none⟩

end Field

/-- One value for each field. -/
abbrev Attributes : List Field → Type
  | [] => Unit
  | f :: fs => f.type.Value × Attributes fs

namespace Attributes

/-- The values where nothing is given. -/
def initial : (fs : List Field) → Attributes fs
  | [] => ()
  | f :: fs => (f.initial, initial fs)

/-- Reads the fields in their order, whatever other keys there are. -/
def readFields : (fs : List Field) → List (String × Json) → Checked (Attributes fs)
  | [], _ => .ok ()
  | f :: fs, o => Checked.both Prod.mk (Reading.given o f.name f.type.read f.initial)
      (readFields fs o)

/-- Reads the members of an object; a key that is no field is a problem of its own. -/
def readMembers (fs : List Field) (o : List (String × Json)) : Checked (Attributes fs) :=
  Reading.closed (fs.map Field.name) o (readFields fs o)

/-- The members that the values are written as, in the order of the fields. -/
def write : (fs : List Field) → Attributes fs → List (String × Json)
  | [], _ => []
  | f :: fs, (v, rest) => (f.name, f.type.write v) :: write fs rest

/-- The values with changes laid over them.  The whole record is read again, so a change has to fit
the field that it names. -/
def patch (fs : List Field) (a : Attributes fs) (changes : List (String × Json)) :
    Checked (Attributes fs) :=
  readMembers fs (Keyed.update (write fs a) changes)

end Attributes
end PromptCanvas
