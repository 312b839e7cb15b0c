import PromptCanvas.Graph.Basic

/-!
# Entries of a document

A document lists nodes and edges as JSON objects.  `Node.ofEntry` and `Edge.ofEntry` read one such
entry, `Node.toEntry` and `Edge.toEntry` write it.  Identifiers may be any JSON value that can be
displayed and become texts; a coordinate may be a number, a flag or a text.
-/

namespace PromptCanvas

/-- What an entry describes. -/
inductive EntryPart where
  | node
  | position
  | edge
deriving Repr, DecidableEq

def EntryPart.text : EntryPart → String
  | .node => "node entry"
  | .position => "position"
  | .edge => "edge entry"

/-- Why an entry cannot be read. -/
inductive EntryError where
  /-- Something other than an object stands for the part. -/
  | notMapping (part : EntryPart) (typeName : String)
  | missingKey (key : String)
  | unknownKind
  | badAttributes (error : AttributeError)
  /-- A coordinate is of a type that has no number. -/
  | notNumber
  /-- A coordinate is a text that spells no number. -/
  | unreadableNumber
  /-- A coordinate is a whole number beyond every double. -/
  | outOfRange
  /-- An identifier, or what stands for a kind, cannot be displayed. -/
  | undisplayable (fault : Json.DisplayFault)
deriving Repr, DecidableEq

/-- The classes of errors, by which they are caught. -/
inductive ErrorClass where
  | key
  | value
  | type
  | overflow
  | recursion
deriving Repr, DecidableEq

namespace EntryError

def errorClass : EntryError → ErrorClass
  | .missingKey _ => .key
  | .unknownKind | .badAttributes _ | .unreadableNumber | .undisplayable .tooManyDigits => .value
  | .notMapping _ _ | .notNumber => .type
  | .outOfRange => .overflow
  | .undisplayable .tooDeep => .recursion

/-- The text of an error that has one of its own. -/
def message? : EntryError → Option String
  | .notMapping part typeName => some (part.text ++ " must be a mapping, not " ++ typeName)
  | .missingKey key => some key
  | .badAttributes e => some e.message
  | _ => none

end EntryError

/-- Reads one coordinate. -/
def readCoordinate : Json → Except EntryError Float
  | .float x => .ok x
  | .int n =>
    match Number.ofInt? n with
    | some x => .ok x
    | none => .error .outOfRange
  | .bool b => .ok (if b then 1 else 0)
  | .str s =>
    match Number.coordinate? s with
    | some x => .ok x
    | none => .error .unreadableNumber
  | _ => .error .notNumber

/-- A coordinate of a position; zero where it is not given. -/
def coordinateIn (fields : List (String × Json)) (key : String) : Except EntryError Float :=
  match Keyed.find? key fields with
  | some j => readCoordinate j
  | none => .ok 0

/-- A value as an identifier. -/
def identifierOf (j : Json) : Except EntryError String := j.display.mapError .undisplayable

/-- A member that must be there, as an identifier. -/
def identifierIn (fields : List (String × Json)) (key : String) : Except EntryError String :=
  match Keyed.find? key fields with
  | some j => identifierOf j
  | none => .error (.missingKey key)

/-- The kind that an entry names.  What is no kind is displayed in the error. -/
def kindIn (fields : List (String × Json)) : Except EntryError Kind :=
  match Keyed.find? "kind" fields with
  | none => .error (.missingKey "kind")
  | some (.str s) =>
    match Kind.ofName? s with
    | some k => .ok k
    | none => .error .unknownKind
  | some j =>
    match j.quoted Json.callsLeft with
    | .ok _ => .error .unknownKind
    | .error f => .error (.undisplayable f)

/-- The members of a position.  What counts as unset stands for no members. -/
def positionIn (fields : List (String × Json)) : Except EntryError (List (String × Json)) :=
  match (Keyed.find? "position" fields).getD .null with
  | .obj members => .ok members
  | j => if j.truthy then .error (.notMapping .position j.typeName) else .ok []

/-- The parent of a node, if one is given. -/
def parentIn (fields : List (String × Json)) : Except EntryError (Option String) :=
  match Keyed.find? "parent_id" fields with
  | none | some .null => .ok none
  | some j => (identifierOf j).map some

namespace Node

variable {α : Type} [Scalar α]

/-- Reads a node.  Of several faults, the error names the first in this order: the kind, the
position, the id, the attributes, the coordinates, the parent. -/
def ofEntry : Json → Except EntryError (Node α)
  | .obj fields => do
    let kind ← kindIn fields
    let position ← positionIn fields
    let id ← identifierIn fields "id"
    let attributes ← (kind.readAttributes ((Keyed.find? "attributes" fields).getD .null)).mapError
      .badAttributes
    let x ← coordinateIn position "x"
    let y ← coordinateIn position "y"
    let parent ← parentIn fields
    return {
      id, kind, attributes
      position := ⟨Scalar.ofFloat x, Scalar.ofFloat y⟩
      collapsed := ((Keyed.find? "collapsed" fields).map Json.truthy).getD true
      parent }
  | j => .error (.notMapping .node j.typeName)

/-- The entry of a node, with both coordinates as doubles. -/
def toEntry (n : Node Float) : Json := .obj [
  ("id", .str n.id),
  ("kind", .str n.kind.name),
  ("attributes", n.kind.writeAttributes n.attributes),
  ("position", .obj [("x", .float n.position.x), ("y", .float n.position.y)]),
  ("collapsed", .bool n.collapsed),
  ("parent_id", Json.ofText? n.parent)]

end Node

namespace Edge

def ofEntry : Json → Except EntryError Edge
  | .obj fields => do
    let id ← identifierIn fields "id"
    let source ← identifierIn fields "source"
    let target ← identifierIn fields "target"
    return ⟨id, source, target⟩
  | j => .error (.notMapping .edge j.typeName)

def toEntry (e : Edge) : Json := .obj [
  ("id", .str e.id), ("source", .str e.source), ("target", .str e.target)]

end Edge

/-- The document of a graph. -/
def Graph.toDocument (g : Graph Float) : Json := .obj [
  ("nodes", .arr (g.nodes.map Node.toEntry)), ("edges", .arr (g.edges.map Edge.toEntry))]

end PromptCanvas
