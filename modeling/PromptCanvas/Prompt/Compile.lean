import PromptCanvas.Prompt.Camera
import PromptCanvas.Prompt.Lighting
import PromptCanvas.Prompt.Sanitize
import PromptCanvas.Prompt.Scene
import PromptCanvas.Prompt.Subject

/-!
# Compiling a graph

A prompt is a row of passages, one for each node that feeds the output.  The passages stand in a
fixed order of stages: composition and style, environment, subjects, camera, lighting.  Within a
stage they stand in the order in which the nodes are found.  The images of the prompt are those of
its passages, in the same order, and the text is cleaned last.
-/

namespace PromptCanvas
namespace Prompt

variable {α : Type}

/-- The clauses of a node and of what feeds it. -/
def clausesOf (g : Graph α) (library : SubjectLibrary) (id : String) :
    (k : Kind) → k.Attributes → List Clause
  | .subjectRoot, a => subjectRootClauses g library id a
  | .subject, a => subjectClauses a
  | .cameraRoot, a => cameraRootClauses g id a
  | .camera, a => cameraClauses a
  | .lightingRoot, a => lightingRootClauses g id a
  | .lightSource, a => lightSourceClauses g id a
  | .lighting, a => lightingClauses a
  | .environmentRoot, a => environmentRootClauses g id a
  | .environment, a => environmentClauses a
  | .composition, a => compositionClauses a
  | .style, a => styleClauses g id a
  | .hair, a => hairClauses (some a)
  | .comment, (_, text, ()) => [.text (text.getD "")]
  | _, _ => []

/-- A part of a prompt: clauses, perhaps under a heading. -/
structure Passage where
  heading : Option String
  clauses : List Clause
deriving Repr, DecidableEq

namespace Passage

def images (p : Passage) : List ImageRef := imagesOf p.clauses

/-- A passage as a text; its images have the numbers after `before`. -/
def text (before : Nat) (p : Passage) : String :=
  let body := clauseText before p.clauses
  match p.heading with
  | none => body
  | some h => String.ofList (Text.strip s!"{h} {body}".toList)

end Passage

/-- The texts of a row of passages; its images have the numbers after `before`. -/
def passageTexts (before : Nat) : List Passage → List String
  | [] => []
  | p :: rest => p.text before :: passageTexts (before + p.images.length) rest

/-! ## Stages -/

/-- The setting of a prompt that has no environment. -/
def defaultSetting : String := "Setting: Minimalist Studio."

/-- The passages of the found nodes of some kinds, kind by kind. -/
def passagesOf (g : Graph α) (library : SubjectLibrary) (found : List (Node α))
    (kinds : List Kind) : List Passage :=
  kinds.flatMap fun k =>
    (found.filter (·.kind == k)).map fun n => ⟨none, clausesOf g library n.id n.kind n.attributes⟩

/-- The passages of the subjects; several are numbered. -/
def underHeadings (subjects : List Passage) : List Passage :=
  subjects.zipIdx.map fun (p, i) =>
    { p with heading := if 1 < subjects.length then s!"SUBJECT {i + 1}:" else "SUBJECT:" }

/-- All passages, in the order of the stages. -/
def passages (g : Graph α) (library : SubjectLibrary) (found : List (Node α)) : List Passage :=
  let stage := passagesOf g library found
  let environment := stage [.environment, .environmentRoot]
  stage [.composition, .style]
    ++ (if environment.isEmpty then [⟨none, [.text defaultSetting]⟩] else environment)
    ++ underHeadings (stage [.subjectRoot, .subject])
    ++ stage [.cameraRoot, .camera]
    ++ stage [.lightingRoot, .lightSource, .lighting]

/-- The aspect ratio of the last composition that has one. -/
def lastAspectRatio? (found : List (Node α)) : Option AspectRatio :=
  (found.filterMap fun n => (n.attributesAs .composition).bind aspectRatio?).getLast?

end Prompt

/-- What a picture is made from. -/
structure CompiledPrompt where
  prompt : String
  images : List ImageRef
  aspectRatio : String
deriving Repr, DecidableEq

namespace Graph

variable {α : Type}

open Prompt

/-- The prompt that a graph describes for a root. -/
def compileFrom (g : Graph α) (library : SubjectLibrary) (defaultRatio : String) (root : String) :
    Except MissingPhrase CompiledPrompt := do
  let found := g.feeders root
  let parts := passages g library found
  let prompt ← sanitize (joinTexts (passageTexts 0 parts))
  return {
    prompt
    images := parts.flatMap Passage.images
    aspectRatio := ((lastAspectRatio? found).map AspectRatio.name).getD defaultRatio }

/-- The prompt for the node with an id, or for the graph's output if there is no such node. -/
def compile (g : Graph α) (library : SubjectLibrary) (defaultRatio : String)
    (root : Option String) : Except MissingPhrase CompiledPrompt :=
  match (root.bind g.node?).orElse fun _ => g.output? with
  | some n => g.compileFrom library defaultRatio n.id
  | none => .ok ⟨defaultSetting, [], defaultRatio⟩

/-- One line about a node: its clauses, or its label if it has none. -/
def summary (g : Graph α) (n : Node α) : String :=
  let text := clauseText 0 (clausesOf g [] n.id n.kind n.attributes)
  if text.isEmpty then n.label.getD "" else text

end Graph

/-- One line about a node by itself. -/
def Node.summary {α : Type} (n : Node α) : String := (Graph.mk [n] []).summary n

end PromptCanvas
