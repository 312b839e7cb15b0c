import PromptCanvas.Library.AssetStore
import PromptCanvas.Service.Commands
import PromptCanvas.Service.Request
import PromptCanvas.Service.Route
import PromptCanvas.Service.Workspace
import PromptCanvas.Settings.Files

/-!
# Answering requests

One session is a workspace with its profiles and assets.  `respond` answers a request with the
session after it.  A request is refused before anything is done: its path, then its method, then its
body, and then what the body names.
-/

namespace PromptCanvas

structure Session where
  workspace : Workspace
  assets : AssetStore
  /-- Where uploaded images get their ids. -/
  assetIds : IdSource
  /-- What looks for an image in an upload. -/
  recognise : ImageRef.Recogniser

namespace Session

/-- A new session, whose tables can be opened, with its own sources of ids and its own recogniser of
images. -/
def startWith (ids assetIds : IdSource) (recognise : ImageRef.Recogniser) (settings : Settings) :
    Session where
  workspace := .startWith ids settings
  assets := if settings.keepsNoTables then .tableless else .empty
  assetIds
  recognise

/-- A new session whose ids are counted and whose images are known by their first bytes. -/
def start (settings : Settings) : Session :=
  startWith .counting .hexadecimal ImageRef.signatures settings

def withWorkspace (s : Session) (w : Workspace) : Session := { s with workspace := w }

/-! ## Answers -/

/-- The version of the service. -/
def version : String := "0.1.0"

/-- What a palette needs to know. -/
def configuration (settings : Settings) : Json :=
  let m := settings.metrics
  let byKind (f : Kind → Json) : Json := .obj (Kind.all.map fun k => (k.name, f k))
  .obj [
    ("version", .str version),
    ("node_kinds", .arr (Kind.all.map fun k => .str k.name)),
    ("connections", byKind fun k => .arr (k.targetNames.map .str)),
    ("pipelines", byKind fun k => .str k.pipeline),
    ("default_aspect_ratio", .str settings.defaultAspectRatio),
    ("geometry", .obj [
      ("node_width", .float m.nodeWidth), ("collapsed_height", .float m.collapsedHeight),
      ("expanded_height", .float m.expandedHeight), ("port_radius", .float m.pinRadius),
      ("min_zoom", .float m.minZoom), ("max_zoom", .float m.maxZoom)])]

def nodeMissing (id : String) : Response := .refused 404 ("Node not found: " ++ id)

def subjectMissing (id : String) : Response := .refused 404 ("Subject not found: " ++ id)

def assetMissing (id : String) : Response := .refused 404 ("Asset not found: " ++ id)

/-- There is one output, and it stays the only one. -/
def outputTaken : Response := .refused 400 "The graph already has its Output node"

/-- The whole graph. -/
def documentOf (s : Session) : Response := .ok s.workspace.document

/-- One node of the graph. -/
def nodeOf (s : Session) (id : String) : Response :=
  match s.workspace.graph.node? id with
  | some n => .ok n.toEntry
  | none => nodeMissing id

/-- The next frame. -/
def frameJson (s : Session) : Json := s.workspace.frame.toJson .objects

/-- Ids that were deleted, in order. -/
def deletedIds (ids : List String) : Response :=
  .ok (.obj [("deleted", .arr ((Text.inOrder ids.eraseDups).map .str))])

/-! ## Changes -/

def edit (s : Session) (op : Store.Operation Float) : Session × Store.Reply :=
  let (w, reply) := s.workspace.edit op
  (s.withWorkspace w, reply)

def event (s : Session) (e : Canvas.Event Float) : Session × Canvas.Answer :=
  let (w, answer) := s.workspace.apply e
  (s.withWorkspace w, answer)

/-- Gives up the gesture and the selection, because the graph is about to be replaced. -/
def settle (s : Session) : Session := ((s.event .cancel).1.event (.select [])).1

def loadGraph (s : Session) (fields : List (String × Json)) : Session × Response :=
  let (s, reply) := s.settle.edit (.load (.obj fields))
  match reply with
  | .unloadable _ => (s, .failed)
  | _ => (s, s.documentOf)

def resetGraph (s : Session) : Session × Response :=
  let (s, _) := s.settle.edit .reset
  (s, s.documentOf)

def createNode (s : Session) (n : NewNode) : Session × Response :=
  match s.edit (.addNode n.kind ⟨n.x, n.y⟩) with
  | (s, .made (some id)) => (s, s.nodeOf id)
  | (s, _) => (s, outputTaken)

def updateAttributes (s : Session) (id : String) (changes : List (String × Json)) :
    Session × Response :=
  match s.edit (.updateAttributes id changes) with
  | (s, .changed true) => (s, s.nodeOf id)
  | (s, .badAttributes e) => (s, .refused 422 e.message)
  | (s, _) => (s, nodeMissing id)

def toggleCollapsed (s : Session) (id : String) : Session × Response :=
  match s.event (.toggle id) with
  | (s, .toggled true) => (s, s.documentOf)
  | (s, _) => (s, nodeMissing id)

def setParent (s : Session) (id : String) (group : Option String) : Session × Response :=
  match s.workspace.graph.node? id with
  | none => (s, nodeMissing id)
  | some n =>
    if n.parent == group then (s, .ok n.toEntry)
    else match s.edit (.setParent id group) with
      | (s, .changed true) => (s, s.nodeOf id)
      | (s, _) => (s, .refused 400 ("Not a usable group: " ++ group.getD "None"))

def createConnected (s : Session) (id : String) (kind : Kind) : Session × Response :=
  match s.workspace.graph.node? id with
  | none => (s, nodeMissing id)
  | some _ =>
    match s.edit (.addConnected id kind) with
    | (s, .made (some _)) => (s, s.documentOf)
    | (s, _) => (s, outputTaken)

def deleteNode (s : Session) (id : String) : Session × Response :=
  match s.workspace.graph.node? id with
  | none => (s, nodeMissing id)
  | some _ =>
    match s.edit (.deleteNodes [id]) with
    | (s, .deleted (i :: ids)) => (s, deletedIds (i :: ids))
    | (s, _) => (s, .refused 400 "The Output node cannot be deleted")

def deleteNodes (s : Session) (ids : List String) : Session × Response :=
  match s.edit (.deleteNodes ids) with
  | (s, .deleted ids) => (s, deletedIds ids)
  | (s, _) => (s, .failed)

def createEdge (s : Session) (e : NewEdge) : Session × Response :=
  let (s, reply) := s.edit (.addEdge e.source e.target)
  let id : Option String := match reply with
    | .made id => id
    | _ => none
  (s, .ok (.obj [("accepted", .bool id.isSome), ("edge_id", Json.ofText? id)]))

def deleteEdge (s : Session) (id : String) : Session × Response :=
  match s.edit (.removeEdge id) with
  | (s, .changed true) => (s, .ok (.obj [("deleted", .str id)]))
  | (s, _) => (s, .refused 404 ("Edge not found: " ++ id))

def compile (s : Session) : Session × Response :=
  match s.assets.library with
  | .error _ => (s, .failed)
  | .ok library =>
    match s.workspace.current library with
    | (w, .ok c) => (s.withWorkspace w, .ok c.toJson)
    | (w, .error _) => (s.withWorkspace w, .failed)

/-! ## The canvas -/

/-- The result of an event beside the next frame. -/
def withFrame (s : Session) (result : Json) : Response :=
  .ok (.obj [("result", result), ("render", s.frameJson)])

def pointerEvent (s : Session) (e : PointerEvent) : Session × Response :=
  let p : Point Float := ⟨e.x, e.y⟩
  let event : Canvas.Event Float := match e.kind with
    | .down => .down p (e.button == 0) e.shift
    | .move => .move p
    | .up => .up p
    | .wheel => .wheel p e.delta e.pinch
    | .cancel => .cancel
  match s.event event with
  | (s, .hit (some h)) => (s, s.withFrame h.toJson)
  | (s, .ended (some o)) => (s, s.withFrame o.toJson)
  | (s, .hit none) | (s, .ended none) => (s, .failed)
  | (s, .cancelled active) => (s, s.withFrame (.obj [("cancelled", .bool active)]))
  | (s, _) => (s, s.withFrame .null)

/-- A command to the view.  A size that is given as a whole is taken over first. -/
def viewCommand (s : Session) (c : ViewCommand) : Session × Response :=
  let sized := match c.width, c.height with
    | some width, some height => (s.event (.resize width height)).1
    | _, _ => s
  let s := match c.action with
    | .zoomIn => (sized.event .zoomIn).1
    | .zoomOut => (sized.event .zoomOut).1
    | .reset => (sized.event .resetView).1
    | .resize => sized
  (s, .ok s.frameJson)

/-! ## Profiles and assets -/

def putSubject (s : Session) (p : SubjectProfile) : Session × Response :=
  match s.assets.putSubject p with
  | (assets, .ok true) =>
    ({ s with assets, workspace := s.workspace.markPreview }, .ok p.toJson)
  | (assets, .ok false) => ({ s with assets }, .refused 500 "Failed to store subject profile")
  | (assets, .error _) => ({ s with assets }, .failed)

def deleteSubject (s : Session) (id : String) : Session × Response :=
  match s.assets.deleteSubject id with
  | (assets, .ok true) =>
    ({ s with assets, workspace := s.workspace.markPreview }, .ok (.obj [("deleted", .str id)]))
  | (assets, .ok false) => ({ s with assets }, subjectMissing id)
  | (assets, .error _) => ({ s with assets }, .failed)

/-- The stem of the ids of assets. -/
def assetStem : String := "asset"

def upload (s : Session) (u : Upload) : Session × Response :=
  match ImageRef.ofUploadBy s.recognise u.data with
  | .error f => (s, .refused 400 ("Invalid image upload: " ++ f.message))
  | .ok image =>
    let id := s.assetIds.peek assetStem
    let (assets, stored) := s.assets.putAsset (.str id) image (Json.ofText? u.label)
    let s := { s with assets, assetIds := s.assetIds.advance }
    match stored with
    | .ok (some a) => (s, .ok a.toJson)
    | .ok none => (s, .refused 500 "Failed to store asset")
    | .error _ => (s, .failed)

def deleteAsset (s : Session) (id : String) : Session × Response :=
  match s.assets.deleteAsset id with
  | (assets, .ok true) => ({ s with assets }, .ok (.obj [("deleted", .str id)]))
  | (assets, .ok false) => ({ s with assets }, assetMissing id)
  | (assets, .error _) => ({ s with assets }, .failed)

/-! ## Requests -/

/-- Acts on a body that can be read. -/
def withBody {β : Type} (s : Session) (b : Body) (r : Record.Reading β)
    (act : β → Session × Response) : Session × Response :=
  match b.read r with
  | .ok v => act v
  | .error response => (s, response)

/-- An answer that is looked up. -/
def found {β : Type} (s : Session) (b : Except AssetStore.LookupFault (Option β)) (write : β → Json)
    (missing : Response) : Session × Response :=
  match b with
  | .ok (some v) => (s, .ok (write v))
  | .ok none => (s, missing)
  | .error _ => (s, .failed)

/-- An answer that lists all there are. -/
def listed {β : Type} (s : Session) (bs : Except Payload.TooDeep (List β)) (name : String)
    (write : β → Json) : Session × Response :=
  match bs with
  | .ok vs => (s, .ok (.obj [(name, .arr (vs.map write))]))
  | .error _ => (s, .failed)

/-- Answers a request for a route. -/
def respondAt (s : Session) (route : Route) (method : String) (body : Body) : Session × Response :=
  match route, method with
  | .config, "GET" => (s, .ok (configuration s.workspace.settings))
  | .graph, "GET" => (s, s.documentOf)
  | .graph, "PUT" => s.withBody body Record.Reading.mapping s.loadGraph
  | .reset, "POST" => s.resetGraph
  | .nodes, "POST" => s.withBody body NewNode.read s.createNode
  | .nodes, "DELETE" => s.withBody body readIds s.deleteNodes
  | .node id, "DELETE" => s.deleteNode id
  | .attributes id, "PATCH" => s.withBody body readChanges (s.updateAttributes id)
  | .collapse id, "POST" => s.toggleCollapsed id
  | .parent id, "PUT" => s.withBody body readGroup (s.setParent id)
  | .connected id, "POST" => s.withBody body readKind (s.createConnected id)
  | .edges, "POST" => s.withBody body NewEdge.read s.createEdge
  | .edge id, "DELETE" => s.deleteEdge id
  | .compile, "GET" => s.compile
  | .canvas, "GET" => (s, .ok s.frameJson)
  | .pointer, "POST" => s.withBody body PointerEvent.read s.pointerEvent
  | .view, "POST" => s.withBody body ViewCommand.read s.viewCommand
  | .subjects, "GET" => s.listed s.assets.listSubjects "subjects" SubjectProfile.toJson
  | .subject id, "GET" => s.found (s.assets.subject? id) SubjectProfile.toJson (subjectMissing id)
  | .subject id, "PUT" => s.withBody body (readProfile id) s.putSubject
  | .subject id, "DELETE" => s.deleteSubject id
  | .assets, "GET" => s.listed s.assets.listAssets "assets" StoredAsset.toJson
  | .assets, "POST" => s.withBody body Upload.read s.upload
  | .asset id, "GET" => s.found (s.assets.asset? id) StoredAsset.toJson (assetMissing id)
  | .asset id, "DELETE" => s.deleteAsset id
  | _, _ => (s, .methodNotAllowed)

/-- Answers a request.  What was done stays done if the response cannot be sent. -/
def respond (s : Session) (r : Request) : Session × Response :=
  match Route.ofPath? r.path with
  | none => (s, if Route.isNear r.path then .redirected else .notFound)
  | some route =>
    let (s, response) := s.respondAt route r.method r.body
    (s, response.sent)

/-- The session after a row of requests. -/
def run (s : Session) (requests : List Request) : Session :=
  requests.foldl (fun s r => (s.respond r).1) s

end Session
end PromptCanvas
