import PromptCanvas.Json.Printer
import PromptCanvas.Json.Reader
import PromptCanvas.Library.Profile
import PromptCanvas.Library.Stamp

/-!
# Profiles and assets in store

Two tables, one of subject profiles and one of uploaded images, each keyed by id.  A row holds its
record as JSON text beside the columns that it is sorted by.  A row whose payload is no record is
passed over; one whose payload is too deep to be read stops what it is read for.  A table may be
missing: nothing is found in it and writing to it fails.  Tables hold texts of characters only, and
a table that is there cannot be asked for an id that is none.
-/

namespace PromptCanvas

open Record

/-- An uploaded image. -/
structure StoredAsset where
  id : String
  image : ImageRef
  label : Option String
  createdAt : Option String
deriving Repr, DecidableEq

namespace StoredAsset

/-- Reads an asset; other members are ignored. -/
def read : Reading StoredAsset :=
  Reading.record "StoredAsset" fun o =>
    let image := Checked.both mk (Reading.required o "id" Reading.filledText)
      (Reading.required o "image" ImageRef.read)
    (image.ap (Reading.given o "label" (Reading.optional Reading.text) none)).ap
      (Reading.given o "created_at" (Reading.optional Reading.text) none)

def toJson (a : StoredAsset) : Json := .obj [
  ("id", .str a.id), ("image", a.image.toJson), ("label", Json.ofText? a.label),
  ("created_at", Json.ofText? a.createdAt)]

end StoredAsset

/-! ## Rows -/

/-- What a row holds its record as: a text, which may be anything that was put there. -/
structure Payload where
  text : String
deriving Repr, DecidableEq

namespace Payload

/-- The payload of a record that is written. -/
def ofJson (j : Json) : Payload := ⟨Text.hold j.written⟩

/-- The most arrays and objects that may stand within each other in the payload of one row that is
looked for. -/
def depthLimit : Nat := 989

/-- The same for a row that is read among all others. -/
def listedDepthLimit : Nat := 987

/-- Some payload is too deep; this array or object in it would have been one too many. -/
structure TooDeep where
  innermost : Json.Container
deriving Repr, DecidableEq

/-- The record of a payload, unless it has none. -/
def record? {β : Type} (depth : Nat) (read : Reading β) (p : Payload) :
    Except TooDeep (Option β) :=
  match Json.read depth p.text with
  | .ok j => .ok (read j).toOption
  | .error (.tooDeep innermost) => .error ⟨innermost⟩
  | .error _ => .ok none

/-- The record of one payload, if there is that. -/
def found? {β : Type} (read : Reading β) : Option Payload → Except TooDeep (Option β)
  | none => .ok none
  | some p => p.record? depthLimit read

/-- The records of all payloads that have one. -/
def records {β : Type} (read : Reading β) (ps : List Payload) : Except TooDeep (List β) :=
  (ps.mapM (record? listedDepthLimit read)).map fun found => found.filterMap id

end Payload

structure SubjectRow where
  id : String
  name : String
  payload : Payload

structure AssetRow where
  id : String
  stamp : Stamp
  payload : Payload

namespace SubjectRow

def ofProfile (p : SubjectProfile) : SubjectRow := ⟨p.id, p.name, .ofJson p.toJson⟩

/-- Sorted by name, then by id. -/
def precedes (r q : SubjectRow) : Bool :=
  Text.isBefore r.name q.name || (!Text.isBefore q.name r.name && Text.upTo r.id q.id)

end SubjectRow

namespace AssetRow

def ofAsset (a : StoredAsset) : AssetRow :=
  ⟨a.id, a.createdAt.elim .absent .ofText, .ofJson a.toJson⟩

/-- Sorted by stamp, the latest first, then by id. -/
def precedes (r q : AssetRow) : Bool :=
  q.stamp.precedes r.stamp || (!r.stamp.precedes q.stamp && Text.upTo r.id q.id)

end AssetRow

/-! ## The tables -/

structure AssetStore where
  subjects : Option (List SubjectRow)
  assets : Option (List AssetRow)
  /-- What the clock tells at each of its readings, which are counted from one. -/
  clock : Nat → Moment
  /-- How many writes were stamped. -/
  stamped : Nat

namespace AssetStore

/-- An empty store beside a clock. -/
def emptyBeside (clock : Nat → Moment) : AssetStore := ⟨some [], some [], clock, 0⟩

/-- An empty store beside a clock that is one second on whenever it is read. -/
def empty : AssetStore := .emptyBeside .counted

/-- A store whose tables are both missing. -/
def tableless : AssetStore := ⟨none, none, .counted, 0⟩

/-- Why a record is not even tried to be written. -/
inductive Refusal where
  | invalid (problems : List Problem)
  /-- Some text of the record is no text of characters. -/
  | unwritable

/-- Why there is no answer about an id. -/
inductive LookupFault where
  /-- The id is no text of characters. -/
  | notCharacters
  | tooDeep (payload : Payload.TooDeep)
deriving Repr, DecidableEq

/-- The rows in which an id is looked for.  The table is looked for first, then the id. -/
def rowsFor {β : Type} (id : String) : Option (List β) → Except LookupFault (List β)
  | none => .ok []
  | some rows => if Text.hasLoneHalf id then .error .notCharacters else .ok rows

/-! ### Subjects -/

/-- Puts a profile in place of any with its id; says whether there is a table for it. -/
def putSubject (s : AssetStore) (p : SubjectProfile) : AssetStore × Except Refusal Bool :=
  if !p.toJson.isStandard then (s, .error .unwritable)
  else
    let s := { s with stamped := s.stamped + 1 }
    match s.subjects with
    | none => (s, .ok false)
    | some rows =>
      ({ s with subjects := some (rows.filter (·.id != p.id) ++ [.ofProfile p]) }, .ok true)

def subjectRows (s : AssetStore) : List SubjectRow := s.subjects.getD []

/-- The profile of an id. -/
def subject? (s : AssetStore) (id : String) : Except LookupFault (Option SubjectProfile) := do
  let rows ← rowsFor id s.subjects
  (Payload.found? SubjectProfile.read ((rows.find? (·.id == id)).map SubjectRow.payload)).mapError
    .tooDeep

/-- Takes a profile out of its table; says whether it was there. -/
def deleteSubject (s : AssetStore) (id : String) : AssetStore × Except LookupFault Bool :=
  match rowsFor id s.subjects with
  | .error f => (s, .error f)
  | .ok rows =>
    if rows.any (·.id == id) then
      ({ s with subjects := some (rows.filter (·.id != id)) }, .ok true)
    else (s, .ok false)

/-- All profiles by name. -/
def listSubjects (s : AssetStore) : Except Payload.TooDeep (List SubjectProfile) :=
  Payload.records SubjectProfile.read
    ((s.subjectRows.mergeSort SubjectRow.precedes).map SubjectRow.payload)

/-- All profiles by their ids. -/
def library (s : AssetStore) : Except Payload.TooDeep SubjectLibrary :=
  s.listSubjects.map fun ps => Keyed.ofList (ps.map fun p => (p.id, p))

/-! ### Assets -/

/-- What an upload becomes: its id must not be empty. -/
def asset (id : Json) (image : ImageRef) (label : Json) (stamp : String) : Checked StoredAsset :=
  Checked.both (fun id label => ⟨id, image, label, some stamp⟩)
    ((Reading.filledText id).under (.key "id"))
    ((Reading.optional Reading.text label).under (.key "label"))

/-- Stores an image under an id.  The time is stamped first, whatever comes of it. -/
def putAsset (s : AssetStore) (id : Json) (image : ImageRef) (label : Json) :
    AssetStore × Except Refusal (Option StoredAsset) :=
  let s := { s with stamped := s.stamped + 1 }
  match asset id image label (s.clock s.stamped).text with
  | .error ps => (s, .error (.invalid ps))
  | .ok a =>
    if !a.toJson.isStandard then (s, .error .unwritable)
    else match s.assets with
      | none => (s, .ok none)
      | some rows =>
        ({ s with assets := some (rows.filter (·.id != a.id) ++ [.ofAsset a]) }, .ok (some a))

def assetRows (s : AssetStore) : List AssetRow := s.assets.getD []

/-- The asset of an id. -/
def asset? (s : AssetStore) (id : String) : Except LookupFault (Option StoredAsset) := do
  let rows ← rowsFor id s.assets
  (Payload.found? StoredAsset.read ((rows.find? (·.id == id)).map AssetRow.payload)).mapError
    .tooDeep

/-- Takes an asset out of its table; says whether it was there. -/
def deleteAsset (s : AssetStore) (id : String) : AssetStore × Except LookupFault Bool :=
  match rowsFor id s.assets with
  | .error f => (s, .error f)
  | .ok rows =>
    if rows.any (·.id == id) then
      ({ s with assets := some (rows.filter (·.id != id)) }, .ok true)
    else (s, .ok false)

/-- All assets, the newest first. -/
def listAssets (s : AssetStore) : Except Payload.TooDeep (List StoredAsset) :=
  Payload.records StoredAsset.read
    ((s.assetRows.mergeSort AssetRow.precedes).map AssetRow.payload)

/-! ### Tables -/

/-- Empties both tables; if either is missing, nothing is emptied. -/
def clear (s : AssetStore) : AssetStore :=
  match s.subjects, s.assets with
  | some _, some _ => { s with subjects := some [], assets := some [] }
  | _, _ => s

/-- Opens the store anew, which makes the tables that are missing. -/
def reopen (s : AssetStore) : AssetStore :=
  { s with subjects := some s.subjectRows, assets := some s.assetRows }

def dropSubjects (s : AssetStore) : AssetStore := { s with subjects := none }

def dropAssets (s : AssetStore) : AssetStore := { s with assets := none }

/-- Puts a row into the table of subjects as it is. -/
def putSubjectRow (s : AssetStore) (row : SubjectRow) : AssetStore :=
  { s with subjects := s.subjects.map fun rows => rows.filter (·.id != row.id) ++ [row] }

/-- Puts a row into the table of assets as it is. -/
def putAssetRow (s : AssetStore) (row : AssetRow) : AssetStore :=
  { s with assets := s.assets.map fun rows => rows.filter (·.id != row.id) ++ [row] }

end AssetStore
end PromptCanvas
