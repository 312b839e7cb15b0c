import PromptCanvas.Proofs.View.Changes
import PromptCanvas.Service.Session

/-!
# A request at fault changes nothing

Many requests are not judged before they are carried out: the change is asked for, and the answer to
it decides the status.  So a refusal is harmless only if the store and the tables leave everything
as it was whenever they say no, and if nothing is refused after it was done.  `Spares` says this of
one answer.  It is proved for each handler, and from there it passes to requests and to rows of
them.
-/

namespace PromptCanvas

namespace Response

/-- The request is at fault. -/
def isRefusal (r : Response) : Bool := 400 ≤ r.status && r.status < 500

theorem isRefusal_ok (j : Json) : (ok j).isRefusal = false := rfl

theorem isRefusal_failed : failed.isRefusal = false := rfl

/-- An answer that cannot be sent becomes a failure, never a refusal. -/
theorem isRefusal_sent {r : Response} (h : r.sent.isRefusal = true) : r.isRefusal = true := by
  unfold sent at h
  split at h
  · exact h
  · cases h

end Response

namespace Graph

variable {α : Type}

/-- A node is still there after it was changed, if it keeps its id. -/
theorem isSome_node?_mapNode {g : Graph α} {id : String} {n n' : Node α} (hn : g.node? id = some n)
    (hid : n'.id = n.id) : ((g.mapNode id fun _ => n').node? id).isSome = true := by
  obtain ⟨hmem, rfl⟩ := mem_of_node? hn
  rw [isSome_node?_iff, mapNode, List.map_map]
  refine List.mem_map.mpr ⟨n, hmem, ?_⟩
  show (if n.id == n.id then n' else n).id = n.id
  rw [if_pos (beq_self_eq_true _), hid]

end Graph

namespace Store

variable {α : Type}

/-! ## What was done is there -/

theorem isSome_node?_addNode {s t : Store α} {kind : Kind} {position : Point α} {id : String}
    (h : s.addNode kind position = (t, some id)) : (t.graph.node? id).isSome = true := by
  unfold addNode at h
  split at h
  · cases h
  · cases h
    exact Graph.isSome_node?_iff.mpr (List.mem_map_of_mem
      (List.mem_append_right _ (List.mem_singleton_self _)))

theorem isSome_node?_updateAttributes {s t : Store α} {id : String}
    {changes : List (String × Json)} (h : s.updateAttributes id changes = (t, .ok true)) :
    (t.graph.node? id).isSome = true := by
  unfold updateAttributes at h
  split at h
  · cases h
  · rename_i hn
    split at h
    · cases h
    · cases h
      exact Graph.isSome_node?_mapNode hn rfl

theorem isSome_node?_setParent {s t : Store α} {id : String} {group : Option String}
    (h : s.setParent id group = (t, true)) : (t.graph.node? id).isSome = true := by
  unfold setParent at h
  split at h
  · cases h
  · rename_i hn
    split at h
    · cases h
      exact Graph.isSome_node?_mapNode hn rfl
    · cases h

end Store

namespace Session

def store (s : Session) : Store Float := s.workspace.canvas.store

/-- The session with another store, and all else as it was. -/
def withStore (s : Session) (store : Store Float) : Session :=
  s.withWorkspace { s.workspace with canvas := { s.workspace.canvas with store } }

theorem edit_eq {s : Session} {op : Store.Operation Float} {t : Store Float} {reply : Store.Reply}
    (h : s.store.apply op = (t, reply)) : s.edit op = (s.withStore t, reply) :=
  congrArg (Prod.map s.withStore id) h

/-- What was answered is no refusal, or the session is what it was. -/
def Spares (s : Session) (answered : Session × Response) : Prop :=
  answered.2.isRefusal = true → answered.1 = s

namespace Spares

theorem self (s : Session) (response : Response) : s.Spares (s, response) := fun _ => rfl

theorem of_not_isRefusal {s : Session} {answered : Session × Response}
    (h : answered.2.isRefusal = false) : s.Spares answered := fun hrefusal => by
  rw [h] at hrefusal
  cases hrefusal

theorem ok {s : Session} (t : Session) (j : Json) : s.Spares (t, .ok j) :=
  of_not_isRefusal (Response.isRefusal_ok j)

theorem failed {s : Session} (t : Session) : s.Spares (t, .failed) :=
  of_not_isRefusal Response.isRefusal_failed

/-- A node that is there is answered. -/
theorem nodeOf {s t : Session} {id : String} (h : (t.workspace.graph.node? id).isSome = true) :
    s.Spares (t, t.nodeOf id) := by
  obtain ⟨n, hn⟩ := Option.isSome_iff_exists.mp h
  have hok : t.nodeOf id = .ok n.toEntry := by rw [Session.nodeOf, hn]
  rw [hok]
  exact ok t _

/-- What the store refused may be refused. -/
theorem of_change {s : Session} {t : Store Float} (h : s.store.Change t false)
    (response : Response) : s.Spares (s.withStore t, response) := fun _ => by
  rw [h.eq_of_refused]
  rfl

theorem of_apply {s : Session} {op : Store.Operation Float} {t : Store Float} {reply : Store.Reply}
    (h : s.store.apply op = (t, reply)) (hop : ∀ document, op ≠ .load document)
    (hrefused : reply.accepted = false) (response : Response) :
    s.Spares (s.withStore t, response) := by
  have hchange := s.store.change_apply hop
  rw [h, hrefused] at hchange
  exact of_change hchange response

/-! ## The graph -/

theorem loadGraph (s : Session) (fields : List (String × Json)) :
    s.Spares (s.loadGraph fields) := by
  unfold Session.loadGraph
  dsimp only
  split
  · exact failed _
  · exact ok _ _

theorem createNode (s : Session) (n : NewNode) : s.Spares (s.createNode n) := by
  rcases hr : s.store.addNode n.kind ⟨n.x, n.y⟩ with ⟨t, made⟩
  have happly : s.store.apply (.addNode n.kind ⟨n.x, n.y⟩) = (t, .made made) := by
    rw [Store.apply, hr]
    rfl
  rw [Session.createNode, edit_eq happly]
  cases made with
  | none => exact of_apply happly (by rintro _ ⟨⟩) rfl _
  | some id => exact nodeOf (Store.isSome_node?_addNode hr)

theorem updateAttributes (s : Session) (id : String) (changes : List (String × Json)) :
    s.Spares (s.updateAttributes id changes) := by
  rcases hr : s.store.updateAttributes id changes with ⟨t, e | done⟩
  · have happly : s.store.apply (.updateAttributes id changes) = (t, .badAttributes e) := by
      rw [Store.apply, hr]
    rw [Session.updateAttributes, edit_eq happly]
    exact of_apply happly (by rintro _ ⟨⟩) rfl _
  · have happly : s.store.apply (.updateAttributes id changes) = (t, .changed done) := by
      rw [Store.apply, hr]
    rw [Session.updateAttributes, edit_eq happly]
    cases done with
    | false => exact of_apply happly (by rintro _ ⟨⟩) rfl _
    | true => exact nodeOf (Store.isSome_node?_updateAttributes hr)

theorem toggleCollapsed (s : Session) (id : String) : s.Spares (s.toggleCollapsed id) := by
  have hchange := s.store.change_toggleCollapsed id
  rcases hr : s.store.toggleCollapsed id with ⟨t, known⟩
  have hevent : s.event (.toggle id) = (s.withStore t, .toggled known) :=
    congrArg (Prod.map s.withStore Canvas.Answer.toggled) hr
  rw [hr] at hchange
  rw [Session.toggleCollapsed, hevent]
  cases known with
  | false => exact of_change hchange _
  | true => exact ok _ _

theorem setParent (s : Session) (id : String) (group : Option String) :
    s.Spares (s.setParent id group) := by
  rcases hr : s.store.setParent id group with ⟨t, done⟩
  have happly : s.store.apply (.setParent id group) = (t, .changed done) := by
    rw [Store.apply, hr]
    rfl
  unfold Session.setParent
  split
  · exact self s _
  · split
    · exact self s _
    · rw [edit_eq happly]
      cases done with
      | false => exact of_apply happly (by rintro _ ⟨⟩) rfl _
      | true => exact nodeOf (Store.isSome_node?_setParent hr)

theorem createConnected (s : Session) (id : String) (kind : Kind) :
    s.Spares (s.createConnected id kind) := by
  rcases hr : s.store.addConnected id kind with ⟨t, made⟩
  have happly : s.store.apply (.addConnected id kind) = (t, .made made) := by
    rw [Store.apply, hr]
    rfl
  unfold Session.createConnected
  split
  · exact self s _
  · rw [edit_eq happly]
    cases made with
    | none => exact of_apply happly (by rintro _ ⟨⟩) rfl _
    | some new => exact ok _ _

theorem deleteNode (s : Session) (id : String) : s.Spares (s.deleteNode id) := by
  rcases hr : s.store.deleteNodes [id] with ⟨t, gone⟩
  have happly : s.store.apply (.deleteNodes [id]) = (t, .deleted gone) := by
    rw [Store.apply, hr]
    rfl
  unfold Session.deleteNode
  split
  · exact self s _
  · rw [edit_eq happly]
    cases gone with
    | nil => exact of_apply happly (by rintro _ ⟨⟩) rfl _
    | cons i ids => exact ok _ _

theorem deleteNodes (s : Session) (ids : List String) : s.Spares (s.deleteNodes ids) := by
  unfold Session.deleteNodes
  split
  · exact ok _ _
  · exact failed _

theorem deleteEdge (s : Session) (id : String) : s.Spares (s.deleteEdge id) := by
  rcases hr : s.store.removeEdge id with ⟨t, done⟩
  have happly : s.store.apply (.removeEdge id) = (t, .changed done) := by
    rw [Store.apply, hr]
    rfl
  rw [Session.deleteEdge, edit_eq happly]
  cases done with
  | false => exact of_apply happly (by rintro _ ⟨⟩) rfl _
  | true => exact ok _ _

/-! ## The prompt and the canvas -/

theorem compile (s : Session) : s.Spares s.compile := by
  unfold Session.compile
  split
  · exact failed _
  · split
    · exact ok _ _
    · exact failed _

theorem pointerEvent (s : Session) (e : PointerEvent) : s.Spares (s.pointerEvent e) := by
  unfold Session.pointerEvent
  dsimp only
  split
  · exact ok _ _
  · exact ok _ _
  · exact failed _
  · exact failed _
  · exact ok _ _
  · exact ok _ _

/-! ## Profiles and assets -/

theorem putSubject (s : Session) (p : SubjectProfile) : s.Spares (s.putSubject p) := by
  unfold Session.putSubject
  split
  · exact ok _ _
  · exact of_not_isRefusal rfl
  · exact failed _

theorem deleteSubject (s : Session) (id : String) : s.Spares (s.deleteSubject id) := by
  unfold Session.deleteSubject AssetStore.deleteSubject
  cases AssetStore.rowsFor id s.assets.subjects with
  | error f => exact failed _
  | ok rows =>
    dsimp only
    by_cases hrow : rows.any (·.id == id) = true
    · rw [if_pos hrow]
      exact ok _ _
    · rw [if_neg hrow]
      exact self s _

theorem upload (s : Session) (u : Upload) : s.Spares (s.upload u) := by
  unfold Session.upload
  split
  · exact self s _
  · dsimp only
    split
    · exact ok _ _
    · exact of_not_isRefusal rfl
    · exact failed _

theorem deleteAsset (s : Session) (id : String) : s.Spares (s.deleteAsset id) := by
  unfold Session.deleteAsset AssetStore.deleteAsset
  cases AssetStore.rowsFor id s.assets.assets with
  | error f => exact failed _
  | ok rows =>
    dsimp only
    by_cases hrow : rows.any (·.id == id) = true
    · rw [if_pos hrow]
      exact ok _ _
    · rw [if_neg hrow]
      exact self s _

/-! ## Requests -/

theorem withBody {β : Type} {s : Session} {act : β → Session × Response}
    (h : ∀ v, s.Spares (act v)) (b : Body) (r : Record.Reading β) :
    s.Spares (s.withBody b r act) := by
  unfold Session.withBody
  split
  · exact h _
  · exact self s _

theorem found {β : Type} (s : Session) (b : Except AssetStore.LookupFault (Option β))
    (write : β → Json) (missing : Response) : s.Spares (s.found b write missing) := by
  unfold Session.found
  split <;> exact self s _

theorem listed {β : Type} (s : Session) (bs : Except Payload.TooDeep (List β)) (name : String)
    (write : β → Json) : s.Spares (s.listed bs name write) := by
  unfold Session.listed
  split <;> exact self s _

theorem respondAt (s : Session) (route : Route) (method : String) (body : Body) :
    s.Spares (s.respondAt route method body) := by
  unfold Session.respondAt
  -- the cases are those of the definition, in their order
  split
  · exact self s _
  · exact self s _
  · exact withBody (loadGraph s) _ _
  · exact ok _ _
  · exact withBody (createNode s) _ _
  · exact withBody (deleteNodes s) _ _
  · exact deleteNode s _
  · exact withBody (updateAttributes s _) _ _
  · exact toggleCollapsed s _
  · exact withBody (setParent s _) _ _
  · exact withBody (createConnected s _) _ _
  · exact withBody (fun _ => ok _ _) _ _
  · exact deleteEdge s _
  · exact compile s
  · exact self s _
  · exact withBody (pointerEvent s) _ _
  · exact withBody (fun _ => ok _ _) _ _
  · exact listed s _ _ _
  · exact found s _ _ _
  · exact withBody (putSubject s) _ _
  · exact deleteSubject s _
  · exact listed s _ _ _
  · exact withBody (upload s) _ _
  · exact found s _ _ _
  · exact deleteAsset s _
  · exact self s _

theorem respond (s : Session) (r : Request) : s.Spares (s.respond r) := by
  unfold Session.respond
  split
  · exact self s _
  · exact fun h => respondAt s _ r.method r.body (Response.isRefusal_sent h)

end Spares

/-- The requests of a row that are not refused. -/
def heeded (s : Session) : List Request → List Request
  | [] => []
  | r :: rest =>
    if (s.respond r).2.isRefusal then s.heeded rest else r :: (s.respond r).1.heeded rest

theorem heeded_eq_nil {s : Session} {requests : List Request}
    (h : ∀ r ∈ requests, (s.respond r).2.isRefusal = true) : s.heeded requests = [] := by
  induction requests with
  | nil => rfl
  | cons r rest ih =>
    rw [List.forall_mem_cons] at h
    rw [heeded, if_pos h.1]
    exact ih h.2

theorem run_heeded (s : Session) (requests : List Request) :
    s.run (s.heeded requests) = s.run requests := by
  induction requests generalizing s with
  | nil => rfl
  | cons r rest ih =>
    have hrun : s.run (r :: rest) = (s.respond r).1.run rest := List.foldl_cons ..
    rw [heeded, hrun]
    split
    · rename_i hrefusal
      rw [Spares.respond s r hrefusal]
      exact ih s
    · exact ih (s.respond r).1

/-- A request that is answered as at fault leaves the session as it was: the graph and the ids that
were drawn, the canvas with its selection, its gesture and its view, the preview with its prompt,
and the profiles and assets.  So of a row of requests, those that are refused can as well be left
out. -/
theorem refusals_change_nothing (s : Session) :
    (∀ r, (s.respond r).2.isRefusal = true → (s.respond r).1 = s) ∧
    ∀ requests, s.run (s.heeded requests) = s.run requests :=
  ⟨Spares.respond s, s.run_heeded⟩

/-- A new session with the usual settings and empty tables. -/
def opened : Session where
  workspace := .startWith .counting
    ⟨"data", "assets.db", "1:1", Store.usualMetrics, "127.0.0.1", 8000⟩
  assets := .empty
  assetIds := .hexadecimal
  recognise := ImageRef.signatures

/-- A lens, seen from nearer. -/
def closerLens : List Request := [
  ⟨"POST", "/api/nodes", .json (.obj [("kind", .str "lens")])⟩,
  ⟨"POST", "/api/canvas/view", .json (.obj [("action", .str "zoom_in")])⟩]

/-- Requests at fault in their path, in their method, in their body, or in what they name. -/
def misguided : List Request := [
  ⟨"GET", "/api/lenses", .absent⟩,
  ⟨"PUT", "/api/nodes", .absent⟩,
  ⟨"PUT", "/api/graph", .json (.arr [])⟩,
  ⟨"POST", "/api/nodes", .json (.obj [("kind", .str "output")])⟩,
  ⟨"PATCH", "/api/nodes/lens-2/attributes",
    .json (.obj [("attributes", .obj [("lens_model", .str "50mm"), ("focus", .int 3)])])⟩,
  ⟨"PUT", "/api/nodes/lens-2/parent", .json (.obj [("group_id", .str "output-1")])⟩,
  ⟨"DELETE", "/api/nodes/output-1", .absent⟩,
  ⟨"POST", "/api/nodes/lens-9/collapse", .absent⟩,
  ⟨"DELETE", "/api/subjects/ann", .absent⟩,
  ⟨"POST", "/api/assets", .json (.obj [("data", .str "data:image/png;base64,AAAA")])⟩]

theorem refusals_change_nothing_misguided :
    let s := opened.run closerLens
    (∀ r ∈ misguided, (s.respond r).2.isRefusal = true ∧ (s.respond r).1 = s) ∧
      s.run misguided = s := by
  intro s
  have hrefused : ∀ r ∈ misguided, (s.respond r).2.isRefusal = true := by decide +kernel
  have hnone : s.heeded misguided = [] := heeded_eq_nil hrefused
  obtain ⟨hsame, hrun⟩ := refusals_change_nothing s
  have hidle : ∀ t : Session, t.run [] = t := fun _ => rfl
  refine ⟨fun r hr => ⟨hrefused r hr, hsame r (hrefused r hr)⟩, ?_⟩
  rw [← hrun, hnone, hidle]

end Session
end PromptCanvas
