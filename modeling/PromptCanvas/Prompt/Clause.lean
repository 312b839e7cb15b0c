import PromptCanvas.Graph.Traversal
import PromptCanvas.Text.Classes

/-!
# Clauses

A part of a prompt is a row of clauses.  Most are plain text; some speak of an image by its number.
A clause holds the image itself and not the number, so that numbers are given once, when the whole
row is written, and cannot disagree with the order of the images.
-/

namespace PromptCanvas
namespace Prompt

/-- A value that says something: not blank, and not the word that stands for no choice. -/
def isSet (value : Option String) : Bool :=
  match value with
  | none => false
  | some s => !(Text.strip s.toList).isEmpty && s != "None"

/-- The value, if it says something. -/
def filled? (value : Option String) : Option String := if isSet value then value else none

/-- How a clause speaks of an image. -/
inductive Mention where
  | style
  | scene
  | identity (mode : Consistency)
deriving Repr, DecidableEq

/-- The clause for an image with a number. -/
def Mention.text (number : Nat) : Mention → String
  | .style => s!"Match the visual style of reference Image {number}."
  | .scene => s!"The setting matches reference Image {number}."
  | .identity .fullCharacter =>
    s!"The subject is visually identical to the character in reference Image {number}."
  | .identity _ => s!"The subject's identity is derived from Image {number}."

inductive Clause where
  | text (s : String)
  | mention (m : Mention) (image : ImageRef)
  /-- An image that goes along without words. -/
  | attachment (image : ImageRef)
deriving Repr, DecidableEq

/-- The images of a row of clauses. -/
def imagesOf (cs : List Clause) : List ImageRef :=
  cs.filterMap fun
    | .text _ => none
    | .mention _ image => some image
    | .attachment image => some image

/-- The texts of a row of clauses; its images have the numbers after `before`. -/
def textsFrom (before : Nat) : List Clause → List String
  | [] => []
  | .text s :: rest => s :: textsFrom before rest
  | .mention m _ :: rest => m.text (before + 1) :: textsFrom (before + 1) rest
  | .attachment _ :: rest => textsFrom (before + 1) rest

/-- Texts joined by spaces, the empty ones left out. -/
def joinTexts (texts : List String) : String :=
  " ".intercalate (texts.filter fun s => !s.isEmpty)

/-- A row of clauses as a text. -/
def clauseText (before : Nat) (cs : List Clause) : String := joinTexts (textsFrom before cs)

/-- A clause for a value under a heading, if the value says something. -/
def labelled (heading : String) (value : Option String) : List Clause :=
  match filled? value with
  | some s => [.text s!"{heading}: {s}."]
  | none => []

/-- A clause that lists values, if there are any. -/
def listed (opening separator : String) (values : List String) : List Clause :=
  if values.isEmpty then [] else [.text s!"{opening} {separator.intercalate values}."]

/-- The attributes of the inputs of one kind, in the order of the edges. -/
def inputAttributes {α : Type} (g : Graph α) (id : String) (k : Kind) : List k.Attributes :=
  (g.inputs id).filterMap (·.attributesAs k)

/-- The attributes of the first input of a kind. -/
def firstAttributes? {α : Type} (g : Graph α) (id : String) (k : Kind) : Option k.Attributes :=
  (inputAttributes g id k).head?

end Prompt
end PromptCanvas
