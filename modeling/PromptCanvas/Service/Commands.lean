import PromptCanvas.Library.Profile
import PromptCanvas.Node.Kind

/-!
# What requests ask for

The bodies of requests as records.  Members that a body does not know are ignored.
-/

namespace PromptCanvas

open Record

/-- A member that must name a kind. -/
def requiredKind (o : List (String × Json)) : Checked Kind :=
  Reading.required o "kind" Reading.choice

/-- A coordinate of a request; zero where it is not given. -/
def givenReal (o : List (String × Json)) (name : String) : Checked Float :=
  Reading.given o name Reading.real 0

structure NewNode where
  kind : Kind
  x : Float
  y : Float

def NewNode.read : Reading NewNode :=
  Reading.body fun o => (Checked.both mk (requiredKind o) (givenReal o "x")).ap (givenReal o "y")

/-- The changes of an attribute record. -/
def readChanges : Reading (List (String × Json)) :=
  Reading.body fun o => Reading.required o "attributes" Reading.mapping

/-- The group that a node is put into. -/
def readGroup : Reading (Option String) :=
  Reading.body fun o => Reading.given o "group_id" (Reading.optional Reading.text) none

/-- The kind of a node that is added beside another. -/
def readKind : Reading Kind := Reading.body requiredKind

/-- The ids of the nodes to delete. -/
def readIds : Reading (List String) :=
  Reading.body fun o => Reading.required o "ids" (Reading.list Reading.text)

structure NewEdge where
  source : String
  target : String

def NewEdge.read : Reading NewEdge :=
  Reading.body fun o => Checked.both mk (Reading.required o "source" Reading.text)
    (Reading.required o "target" Reading.text)

inductive PointerKind where
  | down | move | up | wheel | cancel
deriving Repr, DecidableEq

instance : Labelled PointerKind where
  all := [.down, .move, .up, .wheel, .cancel]
  label
    | .down => "down"
    | .move => "move"
    | .up => "up"
    | .wheel => "wheel"
    | .cancel => "cancel"
  named := false

structure PointerEvent where
  kind : PointerKind
  x : Float
  y : Float
  button : Int
  shift : Bool
  delta : Float
  pinch : Bool

def PointerEvent.read : Reading PointerEvent :=
  Reading.body fun o =>
    let placed := (Checked.both mk (Reading.required o "type" Reading.choice) (givenReal o "x")).ap
      (givenReal o "y")
    let pressed := (placed.ap (Reading.given o "button" Reading.whole 0)).ap
      (Reading.given o "shift" Reading.flag false)
    (pressed.ap (givenReal o "delta_y")).ap (Reading.given o "pinch" Reading.flag false)

inductive ViewAction where
  | zoomIn | zoomOut | reset | resize
deriving Repr, DecidableEq

instance : Labelled ViewAction where
  all := [.zoomIn, .zoomOut, .reset, .resize]
  label
    | .zoomIn => "zoom_in"
    | .zoomOut => "zoom_out"
    | .reset => "reset"
    | .resize => "resize"
  named := false

structure ViewCommand where
  action : ViewAction
  width : Option Float
  height : Option Float

def ViewCommand.read : Reading ViewCommand :=
  Reading.body fun o =>
    let size (name : String) : Checked (Option Float) :=
      Reading.given o name (Reading.optional Reading.positive) none
    (Checked.both mk (Reading.required o "action" Reading.choice) (size "width")).ap (size "height")

/-- A profile for an id that the path gives. -/
def readProfile (id : String) : Reading SubjectProfile :=
  Reading.body fun o =>
    SubjectProfile.readDetails .notList (Reading.body ImageRef.readMembers) o (.ok id)

structure Upload where
  data : String
  label : Option String

def Upload.read : Reading Upload :=
  Reading.body fun o => Checked.both mk (Reading.required o "data" Reading.filledText)
    (Reading.given o "label" (Reading.optional Reading.text) none)

end PromptCanvas
