import PromptCanvas.Json.Value
import PromptCanvas.Keyed
import PromptCanvas.Number.Reader
import PromptCanvas.Record.Checked

/-!
# Reading the values of a record

A reading takes a JSON value to a checked value.  Readings are lenient: a number may be written as
text, and a flag as a number or a word.  A choice is one of a finite list of labels.  A text whose
characters matter to its reading must not hold half of a surrogate pair.
-/

namespace PromptCanvas
namespace Record

/-- A way of reading JSON. -/
abbrev Reading (β : Type) := Json → Checked β

/-- A type with finitely many values, each with a label of its own. -/
class Labelled (β : Type) where
  all : List β
  label : β → String
  /-- The labels are the values of a named type rather than a bare list. -/
  named : Bool := true

namespace Labelled

variable {β : Type} [Labelled β]

/-- The value with a label. -/
def find? (s : String) : Option β := (all : List β).find? fun b => label b == s

def toJson (b : β) : Json := .str (label b)

end Labelled

namespace Reading

variable {β γ : Type}

def text : Reading String
  | .str s => .ok s
  | _ => .fail .notText

/-- Goes on with a text of whole characters. -/
def withCharacters (s : String) (r : Checked β) : Checked β :=
  if Text.hasLoneHalf s then .fail .loneHalf else r

/-- A text that is not empty. -/
def filledText : Reading String
  | .str s => withCharacters s (if s.isEmpty then .fail (.tooShort 1) else .ok s)
  | _ => .fail .notText

/-- Null, or what the reading reads. -/
def optional (r : Reading β) : Reading (Option β)
  | .null => .ok none
  | j => (r j).map some

/-- The first whole number that has more than 63 bits. -/
def wordLimit : Nat := Nat.pow 2 63

/-- A double as a whole number.  What has more than 63 bits is too large. -/
def wholeOfFloat (x : Float) : Checked Int :=
  match Number.parts? x with
  | none => .fail .notFinite
  | some p =>
    if x.floor != x then .fail .fractional
    else
      let n := p.significand * Nat.pow 2 p.exponent.toNat / Nat.pow 2 (-p.exponent).toNat
      if wordLimit ≤ n then .fail .wholeTooLarge
      else .ok (if p.negative then -(n : Int) else n)

def whole : Reading Int
  | .int n => .ok n
  | .bool b => .ok (if b then 1 else 0)
  | .float x => wholeOfFloat x
  | .str s => withCharacters s <|
    match Number.wholeField? s with
    | .ok n => .ok n
    | .error .unreadable => .fail .unreadableWhole
    | .error .tooLong => .fail .wholeTooLarge
  | _ => .fail .notWhole

def real : Reading Float
  | .float x => .ok x
  | .bool b => .ok (if b then 1 else 0)
  | .int n =>
    match Number.ofInt? n with
    | some x => .ok x
    | none => .fail .notNumber
  | .str s => withCharacters s <|
    match Number.field? s with
    | some x => .ok x
    | none => .fail .unreadableNumber
  | _ => .fail .notNumber

/-- The words that stand for a flag, in any case. -/
def flagWord? (s : String) : Option Bool :=
  let w := String.ofList (s.toList.map Char.toLower)
  if ["true", "t", "yes", "y", "on", "1"].contains w then some true
  else if ["false", "f", "no", "n", "off", "0"].contains w then some false
  else none

/-- A whole number as a flag.  One that does not fit a signed word of 64 bits is no flag at all. -/
def flagOfWhole (n : Int) : Checked Bool :=
  if n == 0 then .ok false
  else if n == 1 then .ok true
  else if -(wordLimit : Int) ≤ n && n < wordLimit then .fail .unreadableFlag
  else .fail .notFlag

def flag : Reading Bool
  | .bool b => .ok b
  | .int n => flagOfWhole n
  | .float x =>
    match wholeOfFloat x with
    | .ok n => flagOfWhole n
    | .error _ => .fail .notFlag
  | .str s => withCharacters s <|
    match flagWord? s with
    | some b => .ok b
    | none => .fail .unreadableFlag
  | _ => .fail .notFlag

/-- One of the labels, exactly. -/
def choice [Labelled β] : Reading β := fun j =>
  let refused : Checked β :=
    .fail (.notOneOf ((Labelled.all : List β).map Labelled.label) (Labelled.named β))
  match j with
  | .str s => withCharacters s <|
    match Labelled.find? s with
    | some b => .ok b
    | none => refused
  | _ => refused

/-- A list, each item read alike; anything else is refused for the given cause. -/
def row (refusal : Cause) (r : Reading β) : Reading (List β)
  | .arr items => Checked.each r items
  | _ => .fail refusal

/-- A list of a record. -/
def tuple (r : Reading β) : Reading (List β) := row .notTuple r

/-- A list of a request. -/
def list (r : Reading β) : Reading (List β) := row .notList r

def mapping : Reading (List (String × Json))
  | .obj fields => .ok fields
  | _ => .fail .notMapping

/-! ## Bounds

The upper bound is looked at first.  A value has to compare as within a bound, so every bound
refuses a value that is no number. -/

/-- A whole number from `least` to `most`. -/
def wholeWithin (least : Int) (most : Option Int) : Reading Int := fun j =>
  match whole j with
  | .error ps => .error ps
  | .ok n =>
    match most with
    | some m => if m < n then .fail (.aboveMost m)
      else if n < least then .fail (.belowLeast least) else .ok n
    | none => if n < least then .fail (.belowLeast least) else .ok n

/-- A number from `least` to `most`. -/
def realWithin (least most : Int) : Reading Float := fun j =>
  match real j with
  | .error ps => .error ps
  | .ok x =>
    if !(x ≤ Float.ofInt most) then .fail (.aboveMost most)
    else if !(Float.ofInt least ≤ x) then .fail (.belowLeast least)
    else .ok x

/-- A number from zero on. -/
def nonNegative : Reading Float := fun j =>
  match real j with
  | .error ps => .error ps
  | .ok x => if 0 ≤ x then .ok x else .fail (.belowLeast 0)

/-- A number above zero. -/
def positive : Reading Float := fun j =>
  match real j with
  | .error ps => .error ps
  | .ok x => if 0 < x then .ok x else .fail (.notAbove 0)

/-! ## Members of an object -/

/-- A member that must be there. -/
def required (fields : List (String × Json)) (name : String) (r : Reading β) : Checked β :=
  match Keyed.find? name fields with
  | some j => (r j).under (.key name)
  | none => .error [⟨[.key name], .missing⟩]

/-- A member that has a value of its own where it is absent. -/
def given (fields : List (String × Json)) (name : String) (r : Reading β) (initial : β) :
    Checked β :=
  match Keyed.find? name fields with
  | some j => (r j).under (.key name)
  | none => .ok initial

/-- Keeps a record whose every key is one of the names.  A key that is no text of whole characters
is the only problem there is. -/
def closed (names : List String) (fields : List (String × Json)) (r : Checked β) : Checked β :=
  if fields.any fun (k, _) => Text.hasLoneHalf k then .fail .loneHalf
  else r.guardedBy <|
    match fields.filter fun (k, _) => !names.contains k with
    | [] => .ok ()
    | unknown => .error (unknown.map fun (k, _) => ⟨[.key k], .unknownKey⟩)

/-- An object that is read by its members; anything else is no record of this name. -/
def record (name : String) (members : List (String × Json) → Checked β) : Reading β
  | .obj fields => members fields
  | _ => .fail (.notRecord name)

/-- The body of a request, or a part of it, that is read by its members. -/
def body (members : List (String × Json) → Checked β) : Reading β
  | .obj fields => members fields
  | _ => .fail .notBody

end Reading

/-! ## Reports -/

/-- What stands at a path into a value. -/
def valueAt : List Step → Json → Json
  | [], j => j
  | .key name :: rest, .obj fields => valueAt rest ((Keyed.find? name fields).getD .null)
  | .index i :: rest, .arr items => valueAt rest (items[i]?.getD .null)
  | _, _ => .null

/-- The value that a problem is about: what stands at its place, or the object that misses it. -/
def Problem.value (p : Problem) (j : Json) : Json :=
  match p.cause with
  | .missing => valueAt p.path.dropLast j
  | _ => valueAt p.path j

def Step.toJson : Step → Json
  | .key name => .str name
  | .index i => .int i

/-- A problem with its place, its code and its message. -/
def Problem.toJson (p : Problem) : Json := .obj [
  ("loc", .arr (p.path.map Step.toJson)), ("type", .str p.cause.code),
  ("msg", .str p.cause.message)]

end Record
end PromptCanvas
