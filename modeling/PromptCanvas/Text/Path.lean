import PromptCanvas.Text.Surrogate

/-!
# Paths

A path is written in one way: without empty steps and without steps that stay where they are.  A
path from the root starts with one stroke, or with two if it was given with exactly two.  Not every
text can be the path of a file: `pathFault?` says what stands against it.
-/

namespace PromptCanvas
namespace Text

/-- The steps of a path. -/
def pathSteps (path : String) : List String :=
  (path.splitOn "/").filter fun step => !step.isEmpty && step != "."

/-- The root that a path starts from; empty for a path that starts where one is. -/
def pathRoot (path : String) : String :=
  match path.toList.takeWhile (· == '/') with
  | [] => ""
  | [_, _] => "//"
  | _ => "/"

/-- A path from its root and its steps. -/
def writePath (root : String) (steps : List String) : String :=
  let text := root ++ "/".intercalate steps
  if text.isEmpty then "." else text

/-- A path in its one way of writing. -/
def normalPath (path : String) : String := writePath (pathRoot path) (pathSteps path)

/-- The second path as seen from the first; a path from the root stays what it is. -/
def joinPath (path inner : String) : String :=
  if (pathRoot inner).isEmpty then writePath (pathRoot path) (pathSteps path ++ pathSteps inner)
  else normalPath inner

/-- The steps that lead to a place once each step up has taken back the step before it. -/
def resolvedSteps (steps : List String) : List String :=
  (steps.foldl (fun taken step =>
    match taken with
    | [] => [step]
    | last :: before => if step == ".." && last != ".." then before else step :: taken) []).reverse

/-! ## Paths of files -/

/-- Why nothing can be made at a path. -/
inductive PathFault where
  /-- A half of a surrogate pair has no bytes. -/
  | noBytes
  /-- A path ends at its first null character. -/
  | cutShort
  | tooLong
  /-- Too many directories on the way are missing. -/
  | tooDeep
deriving Repr, DecidableEq

/-- How many bytes a code point takes in a path.  The low halves from U+DC80 to U+DCFF stand for
bytes that are no characters. -/
def pathBytes? (n : Nat) : Option Nat :=
  if isHalf n then if 0xdc80 ≤ n && n ≤ 0xdcff then some 1 else none
  else if n < 0x80 then some 1
  else if n < 0x800 then some 2
  else if n < 0x10000 then some 3
  else some 4

/-- How many bytes a path takes. -/
def pathSize? (path : String) : Option Nat :=
  ((codePoints path.toList).mapM pathBytes?).map fun sizes => sizes.foldl (· + ·) 0

/-- The most bytes of one step of a path. -/
def stepLimit : Nat := 255

/-- The most bytes of a path. -/
def pathLimit : Nat := 4095

/-- A step has too many bytes. -/
def isLongStep (step : String) : Bool := (pathSize? step).any (stepLimit < ·)

/-- The most directories that are made on the way to one. -/
def wayLimit : Nat := 988

/-- The steps of a path that lead to directories which are not there, if only the first `present`
of its steps do. -/
def missingSteps (path : String) (present : Nat) : List String :=
  ((pathSteps path).drop present).dropWhile (· == "..")

/-- What stands against making a directory at a path, of which only the first `present` steps lead
to directories.  A path is tried as a whole first, which shows a long step only if it is the first
that leads nowhere. -/
def pathFault? (path : String) (present : Nat) : Option PathFault :=
  match pathSize? path with
  | none => some .noBytes
  | some size =>
    let missing := missingSteps path present
    if path.toList.contains '\x00' then some .cutShort
    else if pathLimit < size || missing.head?.any isLongStep then some .tooLong
    else if wayLimit < missing.length then some .tooDeep
    else if missing.any isLongStep then some .tooLong
    else none

end Text
end PromptCanvas
