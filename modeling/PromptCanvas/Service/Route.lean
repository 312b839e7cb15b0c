/-!
# Routes

What a path names.  A step of a path that stands for an id may be any text without a stroke, but not
empty.
-/

namespace PromptCanvas

inductive Route where
  | config
  | graph
  | reset
  | nodes
  | node (id : String)
  | attributes (id : String)
  | collapse (id : String)
  | parent (id : String)
  | connected (id : String)
  | edges
  | edge (id : String)
  | compile
  | canvas
  | pointer
  | view
  | subjects
  | subject (id : String)
  | assets
  | asset (id : String)
deriving Repr, DecidableEq

namespace Route

/-- The route of the steps after the common start. -/
def ofSteps? : List String → Option Route
  | ["config"] => some .config
  | ["graph"] => some .graph
  | ["graph", "reset"] => some .reset
  | ["nodes"] => some .nodes
  | ["nodes", id] => some (.node id)
  | ["nodes", id, "attributes"] => some (.attributes id)
  | ["nodes", id, "collapse"] => some (.collapse id)
  | ["nodes", id, "parent"] => some (.parent id)
  | ["nodes", id, "connected"] => some (.connected id)
  | ["edges"] => some .edges
  | ["edges", id] => some (.edge id)
  | ["compile"] => some .compile
  | ["canvas"] => some .canvas
  | ["canvas", "pointer"] => some .pointer
  | ["canvas", "view"] => some .view
  | ["subjects"] => some .subjects
  | ["subjects", id] => some (.subject id)
  | ["assets"] => some .assets
  | ["assets", id] => some (.asset id)
  | _ => none

/-- The route of a path that ends where its last step does. -/
def ofExactPath? (path : String) : Option Route :=
  match (path.toList.splitOn '/').map String.ofList with
  | "" :: "api" :: steps => if steps.contains "" then none else ofSteps? steps
  | _ => none

/-- The route of a path.  One line end after a step that stands for itself does not count. -/
def ofPath? (path : String) : Option Route :=
  (ofExactPath? path).orElse fun _ =>
    if path.toList.getLast? == some '\n' then
      ofExactPath? (String.ofList path.toList.dropLast)
    else none

/-- A path that is that of a route but for the strokes at its end. -/
def isNear (path : String) : Bool :=
  let bare := (path.toList.reverse.dropWhile (· == '/')).reverse
  path.toList.getLast? == some '/' && (ofPath? (String.ofList bare)).isSome

end Route
end PromptCanvas
