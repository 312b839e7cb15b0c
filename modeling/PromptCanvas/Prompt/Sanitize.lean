import PromptCanvas.Text.Classes
import PromptCanvas.Text.Word

/-!
# Cleaning a prompt

Some words are replaced by phrases and some are taken out, then the space that is left over is
tidied.  Words are whole runs of word characters, compared without regard to case.  `pass` does all
of this once; `sanitize` repeats it until nothing changes.

Two notions of case meet here.  A word is found by `foldCase`, under which the long s is an s; its
phrase is found by the word's lower-case letters, and the long s has none.  A word with a long s in
it is therefore found but has no phrase, and that is the one way in which cleaning fails.
-/

namespace PromptCanvas
namespace Prompt

open Text

/-- A stretch of text: a run of word characters, or a run of others. -/
inductive Piece where
  | word (cs : List Char)
  | gap (cs : List Char)
deriving Repr, DecidableEq

namespace Piece

def chars : Piece → List Char
  | .word cs => cs
  | .gap cs => cs

/-- Puts a character before the pieces, into the first of them if it is of the same class. -/
def push (c : Char) : List Piece → List Piece
  | .word cs :: rest => if isWord c then .word (c :: cs) :: rest else .gap [c] :: .word cs :: rest
  | .gap cs :: rest => if isWord c then .word [c] :: .gap cs :: rest else .gap (c :: cs) :: rest
  | [] => if isWord c then [.word [c]] else [.gap [c]]

/-- The pieces of a text; words and gaps take turns. -/
def split (cs : List Char) : List Piece := cs.foldr push []

/-- The text of the pieces. -/
def join (ps : List Piece) : List Char := ps.flatMap chars

end Piece

/-! ## Words -/

/-- The letter that a character is compared as. -/
def foldCase (c : Char) : Char :=
  if c == 'ſ' then 's'
  else if c == 'ı' || c == 'İ' then 'i'
  else if c == '\u212a' then 'k'
  else c.toLower

/-- The lower case of a letter that is compared as an ASCII letter. -/
def lowerCase (c : Char) : Char := if c == '\u212a' then 'k' else c.toLower

/-- A word is this one, without regard to case. -/
def isTerm (term : String) (cs : List Char) : Bool := cs.map foldCase == term.toList

/-- The single words that are replaced, with their phrases. -/
def phrases : List (String × String) := [
  ("stepladder", "30-degree downward vertical pitch"),
  ("reflector", "ambient bounce illumination"),
  ("softbox", "large diffused directional light source"),
  ("blood", "deep crimson liquid pigment study"),
  ("naked", "unadorned anatomical form"),
  ("lube", "translucent fluid with high specular reflectivity")]

/-- The two words that are replaced together, if one plain space is between them. -/
def pair : String × String := ("fake", "blood")

/-- What the pair is replaced by. -/
def pairPhrase : String := "high-viscosity translucent surface coating"

/-- The words that are taken out. -/
def forbidden : List String := ["stand", "tripod", "mount", "lamp"]

/-- A word is found that has no phrase. -/
structure MissingPhrase where
  word : String
deriving Repr, DecidableEq

/-- A word, or the phrase in its place. -/
def replaceWord (cs : List Char) : Except MissingPhrase (List Char) :=
  match phrases.find? fun (term, _) => isTerm term cs with
  | none => .ok cs
  | some _ =>
    let lowered := String.ofList (cs.map lowerCase)
    match phrases.find? fun (term, _) => term == lowered with
    | some (_, phrase) => .ok phrase.toList
    | none => .error ⟨lowered⟩

/-- The text with all phrases in place; the pair goes before its second word. -/
def replace : List Piece → Except MissingPhrase (List Char)
  | [] => .ok []
  | .gap cs :: rest => (replace rest).map (cs ++ ·)
  | .word a :: .gap [' '] :: .word b :: rest =>
    if isTerm pair.1 a && isTerm pair.2 b then (replace rest).map (pairPhrase.toList ++ ·)
    else do
      let first ← replaceWord a
      let others ← replace (.gap [' '] :: .word b :: rest)
      return first ++ others
  | .word a :: rest => do
    let first ← replaceWord a
    let others ← replace rest
    return first ++ others

/-- The pieces without the forbidden words. -/
def removeForbidden (ps : List Piece) : List Piece :=
  ps.filter fun
    | .word cs => !forbidden.any (isTerm · cs)
    | .gap _ => true

/-! ## Space -/

/-- A space or a tab. -/
def isSpacing (c : Char) : Bool := c == ' ' || c == '\t'

/-- The marks that no space stands before. -/
def isTightMark (c : Char) : Bool := ['.', ',', ';', ':', '!', '?', ')'].contains c

/-- One space in place of each run of two or more spaces and tabs. -/
def collapseSpacing (cs : List Char) : List Char :=
  cs.foldr (fun c after =>
    match after with
    | d :: rest => if isSpacing c && isSpacing d then ' ' :: rest else c :: d :: rest
    | [] => [c]) []

/-- The text without the spaces and tabs right before a tight mark. -/
def tightenMarks (cs : List Char) : List Char :=
  cs.foldr (fun c after =>
    if isSpacing c && ((after.head?).map isTightMark).getD false then after else c :: after) []

/-- Everything once. -/
def pass (cs : List Char) : Except MissingPhrase (List Char) := do
  let replaced ← replace (Piece.split cs)
  let kept := Piece.join (removeForbidden (Piece.split replaced))
  return strip (tightenMarks (collapseSpacing kept))

/-- Repeats the pass until nothing changes. -/
def settle (cs : List Char) : Except MissingPhrase (List Char) := do
  let mut result := cs
  repeat
    let again ← pass result
    if again = result then break
    result := again
  return result

/-- The cleaned prompt. -/
def sanitize (text : String) : Except MissingPhrase String := do
  let once ← pass text.toList
  let settled ← settle once
  return String.ofList settled

end Prompt
end PromptCanvas
