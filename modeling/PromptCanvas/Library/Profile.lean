import PromptCanvas.Image.Ref
import PromptCanvas.Node.Choice

/-!
# Subject profiles

A profile is a reusable identity: a name with what is known about it and its reference images.  A
subject of a graph refers to a profile by its id.
-/

namespace PromptCanvas

open Record

/-- Whom a profile depicts. -/
inductive ProfileType where
  | realPerson
  | createdCharacter
deriving Repr, DecidableEq

instance : Labelled ProfileType where
  all := [.realPerson, .createdCharacter]
  label
    | .realPerson => "Real Person"
    | .createdCharacter => "Created Character"
  named := false

structure SubjectProfile where
  id : String
  name : String
  description : Option String
  gender : Option Gender
  bodyType : Option String
  type : ProfileType
  images : List ImageRef
  tags : List String
deriving Repr, DecidableEq

/-- The profiles of a compilation by their ids. -/
abbrev SubjectLibrary := List (String × SubjectProfile)

namespace SubjectProfile

/-- Reads everything but the id.  `refusal` is the cause for images or tags that are no list. -/
def readDetails (refusal : Cause) (image : Reading ImageRef) (o : List (String × Json))
    (id : Checked String) : Checked SubjectProfile :=
  let text? (name : String) : Checked (Option String) :=
    Reading.given o name (Reading.optional Reading.text) none
  let named := Checked.both mk id (Reading.required o "name" Reading.filledText)
  let gender := Reading.given o "gender" (Reading.optional Reading.choice) none
  let described := ((named.ap (text? "description")).ap gender).ap (text? "body_type")
  let typed := described.ap (Reading.given o "type" Reading.choice .createdCharacter)
  (typed.ap (Reading.given o "images" (Reading.row refusal image) [])).ap
    (Reading.given o "tags" (Reading.row refusal Reading.text) [])

/-- Reads a profile; other members are ignored. -/
def read : Reading SubjectProfile :=
  Reading.record "SubjectProfile" fun o =>
    readDetails .notTuple ImageRef.read o (Reading.required o "id" Reading.filledText)

def toJson (p : SubjectProfile) : Json := .obj [
  ("id", .str p.id), ("name", .str p.name), ("description", Json.ofText? p.description),
  ("gender", Json.ofOption Labelled.toJson p.gender), ("body_type", Json.ofText? p.bodyType),
  ("type", Labelled.toJson p.type), ("images", .arr (p.images.map ImageRef.toJson)),
  ("tags", .arr (p.tags.map .str))]

end SubjectProfile
end PromptCanvas
