import PromptCanvas.Settings.Basic

/-!
# The files of the settings

The directory that the settings name is made as soon as they are read.  The tables of a service lie
in one file, for which every directory on the way is made first.
-/

namespace PromptCanvas
namespace Settings

open Text (PathFault)

/-- What stands against making the directory. -/
def directoryFault? (s : Settings) : Option PathFault := Text.pathFault? s.dataDir 0

/-- Why the file of the tables cannot be opened. -/
inductive OpenFault where
  /-- Nothing can be made at its path. -/
  | path (fault : PathFault)
  /-- A directory stands there, or the path leaves no room for what is written beside it. -/
  | notOpened
deriving Repr, DecidableEq

/-- The most bytes of the name of a file of tables: a journal is kept beside it, whose name has
eight bytes more. -/
def tableNameLimit : Nat := Text.stepLimit - 8

/-- The most bytes of the path of a file of tables, as seen from where one starts. -/
def tablePathLimit : Nat := 487

/-- The places that are passed on the way along some steps. -/
def placesPassed (steps : List String) : List (List String) :=
  (List.range (steps.length + 1)).map fun n => Text.resolvedSteps (steps.take n)

/-- The file of the tables would stand where there is a directory: where one starts from, above
that, or where one was made on the way. -/
def tablesAtDirectory (s : Settings) : Bool :=
  let root := Text.pathRoot s.assetDbPath
  let steps := Text.pathSteps s.assetDbPath
  let place := Text.resolvedSteps steps
  let made := placesPassed steps.dropLast
    ++ if Text.pathRoot s.dataDir == root then placesPassed (Text.pathSteps s.dataDir) else []
  place.isEmpty || place.getLast? == some ".." || made.contains place

/-- How many steps on the way to the file of the tables lead along the directory that the settings
name. -/
def sharedSteps (s : Settings) : Nat :=
  if Text.pathRoot s.dataDir != Text.pathRoot s.assetDbPath then 0
  else
    let pairs := (Text.pathSteps s.dataDir).zip (Text.pathSteps s.assetDbPath)
    (pairs.takeWhile fun (a, b) => a == b).length

/-- What stands against opening the tables. -/
def openFault? (s : Settings) : Option OpenFault :=
  let path := s.assetDbPath
  let steps := Text.pathSteps path
  let way := Text.writePath (Text.pathRoot path) steps.dropLast
  match Text.pathFault? way s.sharedSteps with
  | some fault => some (.path fault)
  | none =>
    match Text.pathFault? path (steps.length - 1) with
    | some .noBytes => some (.path .noBytes)
    | some .cutShort => some (.path .cutShort)
    | some .tooLong | some .tooDeep => some .notOpened
    | none =>
      let name := steps.getLast?.getD ""
      if s.tablesAtDirectory || (Text.pathSize? name).any (tableNameLimit < ·)
          || (Text.pathSize? path).any (tablePathLimit < ·) then some .notOpened
      else none

/-- The tables are kept in memory, where they are gone after each access. -/
def keepsNoTables (s : Settings) : Bool := s.assetDbPath == ":memory:"

end Settings
end PromptCanvas
